import NocReport.Triage.PatternConservation

set_option relaxedAutoImplicit false
set_option autoImplicit false

/-!
# The semantic checks of a result

`validate_log_triage_result` (`bridge/noc_bridge/validation.py`): what a reconciled result has to
satisfy beyond its schema. The narratives are complete and short, no two findings have the same
identity, the counts and percentages agree, no long detail is repeated, and no cause is asserted
without evidence.

## Main definitions

* `Triage.validateNarrativeCompletion` — a narrative that is not cut off.
* `Triage.validateFinding` — the checks of one finding.
* `Triage.validateFindingDetailDensity`, `Triage.validateRepetition`,
  `Triage.validateCausationLanguage` — the checks of the details.
* `Triage.validateLogTriageResult` — the whole.
* `Triage.Accepted` — what an accepted result looks like.

## Main results

* `Triage.validateLogTriageResult_eq_ok` — the checks accept exactly such results.
-/

namespace List

/-- A list that loses nothing has no repetitions. -/
lemma nodup_of_length_eraseDups {α : Type} [BEq α] [LawfulBEq α] {l : List α}
    (h : l.eraseDups.length = l.length) : l.Nodup := by
  have hsub : l.eraseDups.Subperm l :=
    (nodup_eraseDups l).subperm fun _ hmem => List.mem_eraseDups.mp hmem
  exact (hsub.perm_of_length_le h.ge).nodup_iff.mp (nodup_eraseDups l)

end List

namespace Triage

/-! ## Texts -/

/-- `OutputValidationError`, which is a `ValueError`. -/
def outputValidationError (message : PyStr) : PyError :=
  .custom (py "OutputValidationError") message

/-- `if bad: raise OutputValidationError(message)`. -/
def refuse (bad : Bool) (message : PyStr) : Except PyError Unit :=
  if bad then throw (outputValidationError message) else pure ()

/-- `_SENTENCE_ENDINGS` -/
def isSentenceEnding (c : ℕ) : Bool := among ".!?。！？" c

/-- `_sentence_count`. -/
def sentenceCount (value : PyStr) : ℕ := max 1 (value.countP isSentenceEnding)

/-- `text.rstrip(chars)`. -/
def rstripChars (chars : String) (text : PyStr) : PyStr :=
  (text.reverse.dropWhile (among chars)).reverse

section Expressions

variable (env : Env)

/-- `_TRAILING_INCOMPLETE` -/
def trailingIncompleteRegex : Regex :=
  .concat [.oneOf [
    .chars (ignoringCase env (among ":;,/")),
    .concat [.boundary, .oneOf ((["and", "or", "but", "because", "including", "such as", "that",
      "which", "with", "from", "to", "of", "the", "a", "an", "in", "on", "for", "as", "due",
      "via"]).map (literalI env)), .boundary],
    .oneOf ((["并且", "包括", "例如", "由于", "导致", "以及", "和", "或", "其中", "与", "在", "对",
      "从", "通过"]).map (literalI env))], .atEnd]

/-- `_LINKING_EVIDENCE` -/
def linkingEvidenceRegex : Regex :=
  let identifier := Regex.alt (literalI env "id") (literalI env "identifier")
  .oneOf [
    literalI env "trace",
    .concat [literalI env "request", .many space, identifier],
    .concat [literalI env "correlation", .many space, identifier],
    .concat [literalI env "nested", .plus space, literalI env "exception"],
    literalI env "caller", literalI env "callee",
    .concat [literalI env "same", .plus space, literalI env "dependency"],
    .concat [literalI env "explicit", .optional (literalI env "ly"), .plus space,
      literalI env "linked"],
    literalI env "链路",
    .concat [literalI env "请求", .many space, literalI env "ID"],
    .concat [literalI env "关联", .many space, literalI env "ID"],
    literalI env "嵌套异常", literalI env "调用方", literalI env "被调用方", literalI env "同一依赖",
    literalI env "明确关联"]

/-- `_SHARED_CAUSATION` -/
def sharedCausationRegex : Regex :=
  let word := fun s => Regex.concat [literalI env s, .plus space]
  let rootCause := Regex.concat [.optional (word "root"), literalI env "cause"]
  let nearby := fun s => Regex.concat [literalI env s, .rep 0 (some 8) (.chars (· != 10)),
    .alt (literalI env "根因") (literalI env "原因")]
  .oneOf [
    .concat [literalI env "share", .optional (.alt (literalI env "s") (literalI env "d")),
      .plus space, .optional (.alt (word "one") (word "a")), .optional (word "single"), rootCause],
    .concat [word "common", rootCause],
    .concat [word "single", word "root", literalI env "cause"],
    .concat [.alt (literalI env "both") (literalI env "these"), .plus space,
      .oneOf (["failures", "errors", "clusters", "patterns"].map (literalI env)), .plus space,
      .alt (literalI env "are") (literalI env "were"), .plus space, word "caused",
      literalI env "by"],
    nearby "共同", nearby "同一", nearby "单一"]

/-- `_SPECULATIVE_CAUSATION` -/
def speculativeCausationRegex : Regex :=
  let word := fun s => Regex.concat [literalI env s, .plus space]
  .alt
    (.concat [.oneOf (["probably", "likely", "possibly", "may be", "might be", "could be"].map
      (literalI env)), .plus space,
      .oneOf [.concat [word "caused", literalI env "by"], .concat [word "due", literalI env "to"],
        .concat [word "related", literalI env "to"]]])
    (.concat [literalI env "可能", .oneOf [literalI env "由于", literalI env "是由",
      .concat [literalI env "与", .plus (.chars (· != 10)), literalI env "相关"]]])

/-- `_CAUSATION_NEGATION` -/
def causationNegationRegex : Regex :=
  .oneOf (["cannot", "can't", "can not", "no evidence", "not established", "not confirmed",
    "cannot be confirmed", "无法", "不能", "未发现", "没有证据", "不能确认", "未确认"].map (literalI env))

/-- The expression matches somewhere in the text. -/
def occurs (re : Regex) (text : PyStr) : Bool := (re.search env.isWord text).isSome

end Expressions

/-! ## Narratives -/

section Checks

variable (env : Env)

/-- The text without quotes and brackets that close it. -/
def lexicalOf (text : PyStr) : PyStr := rstripChars ")]\x7d\"'”’》）】" text

/-- `_validate_narrative_completion`. -/
def validateNarrativeCompletion (value path : PyStr) : Except PyError Unit := do
  let text := value.strip
  refuse text.isEmpty (path ++ py " must be a complete sentence")
  refuse ((py "...").isSuffixOf text || (py "…").isSuffixOf text) (path ++ py " appears truncated")
  let lexical := lexicalOf text
  refuse (occurs env (trailingIncompleteRegex env) (rstripChars ".!?。！？" lexical))
    (path ++ py " ends with an incomplete phrase")
  refuse (!(lexical.getLast?.any isSentenceEnding))
    (path ++ py " must end with complete-sentence punctuation")

/-- A summary: a text of two to four complete sentences and at most 800 characters. -/
def validateSummary (label : PyStr) (result : Json.Fields) (field : String) :
    Except PyError Unit := do
  let path := label ++ py "." ++ py field
  match result.get (py field) with
  | .str value =>
    refuse (!notBlank value) (path ++ py " must be a non-empty string")
    refuse (decide (800 < value.length)) (path ++ py " is too long for Short Summary")
    validateNarrativeCompletion env value path
    let count := sentenceCount value
    refuse (!(decide (2 ≤ count) && decide (count ≤ 4)))
      (path ++ py " must contain 2-4 concise sentences; got " ++ .ofNat count)
  | _ => throw (outputValidationError (path ++ py " must be a non-empty string"))

/-! ## One finding -/

/-- The identities that have been seen. -/
structure Seen where
  ids : List PyStr
  findingIds : List PyStr

/-- The id of a finding. -/
def validateId (path : PyStr) (seen : Seen) (finding : Json.Fields) : Except PyError PyStr :=
  match finding.get (py "id") with
  | .str id => do
    refuse (!notBlank id) (path ++ py ".id must be a non-empty string")
    refuse (seen.findingIds.contains id) (py "duplicate finding id: " ++ id)
    return id
  | _ => throw (outputValidationError (path ++ py ".id must be a non-empty string"))

/-- A text of a finding. -/
def validateText (path : PyStr) (finding : Json.Fields) (field : String) : Except PyError Unit :=
  match finding.get (py field) with
  | .str value =>
    refuse (!notBlank value) (path ++ py "." ++ py field ++ py " must be a non-empty string")
  | _ =>
    throw (outputValidationError (path ++ py "." ++ py field ++ py " must be a non-empty string"))

/-- A text that is not empty. -/
def nonEmptyId (v : Json) : Option PyStr :=
  match v with
  | .str (c :: cs) => some (c :: cs)
  | _ => none

/-- The pattern ids of a finding, none of which has been seen. -/
def validatePatternIds (path : PyStr) (seen : Seen) (finding : Json.Fields) :
    Except PyError (List PyStr) :=
  match finding.get (py "pattern_ids") with
  | .arr (item :: items) => do
    let ids := (item :: items).filterMap nonEmptyId
    refuse (ids.length != (item :: items).length) (path ++ py ".pattern_ids contains an invalid ID")
    refuse (ids.eraseDups.length != ids.length) (path ++ py ".pattern_ids contains duplicate IDs")
    match ids.find? seen.ids.contains with
    | some id => throw (outputValidationError (py "duplicate finding identity: " ++ id))
    | none => return ids
  | _ => throw (outputValidationError (path ++ py ".pattern_ids must be a non-empty list"))

/-- An integer that is not negative. -/
def natural (v : Json) : Option ℕ :=
  match v with
  | .int (.ofNat n) => some n
  | _ => none

/-- The entry ids of a finding, if it has any. -/
def validateEvidence (path : PyStr) (finding : Json.Fields) : Except PyError Unit :=
  match finding.get (py "evidence_entry_ids") with
  | .null => return
  | .arr (item :: items) => do
    let ids := (item :: items).filterMap natural
    refuse (ids.length != (item :: items).length)
      (path ++ py ".evidence_entry_ids contains an invalid entry ID")
    refuse (ids.eraseDups.length != ids.length)
      (path ++ py ".evidence_entry_ids contains duplicate IDs")
  | _ => throw (outputValidationError (path ++ py ".evidence_entry_ids must be a non-empty list"))

/-- The entry counts of a finding, either of which may be missing. -/
def validateEntryCounts (path : PyStr) (total : ℤ) (finding : Json.Fields) :
    Except PyError (Option ℕ) := do
  let count := fun (key : String) => match finding.get (py key) with
    | .null => pure none
    | v => match natural v with
      | some n => pure (some n)
      | none => throw (outputValidationError
          (path ++ py "." ++ py key ++ py " must be a non-negative integer"))
  let physical ← count "physical_entry_count"
  refuse (physical.any fun n => total < n)
    (path ++ py ".physical_entry_count cannot exceed total_entries")
  let occurrence ← count "occurrence_count"
  refuse (physical.any fun n => occurrence.any fun m => n < m)
    (path ++ py ".occurrence_count cannot exceed physical_entry_count")
  return physical

/-- `float(v)`. -/
def floatOf (v : Json) : Except PyError (Option JsonFloat) :=
  match v with
  | .int i =>
    if 2 ^ 1024 - 2 ^ 970 ≤ i.natAbs then throw .overflowError
    else return some (.finite (Double.nearest i))
  | .float f => return some f
  | _ => return none

/-- The percentage of a count. -/
def expectedPercentage (count : ℕ) (total : ℤ) : ℚ :=
  if total = 0 then 0 else Double.roundTo 2 (Double.mul (Double.div count total) 100)

/-- The percentage of a finding. -/
def validatePercentage (path : PyStr) (count : ℕ) (total : ℤ) (percentage : Json) :
    Except PyError Unit := do
  match ← floatOf percentage with
  | none => throw (outputValidationError (path ++ py ".percentage must be a number"))
  | some (.finite q) =>
    refuse (!(decide (0 ≤ q) && decide (q ≤ 100)))
      (path ++ py ".percentage must be finite and in [0, 100]")
    let expected := expectedPercentage count total
    refuse (decide (Double.nearest (1 / 100) < |Double.nearest (q - expected)|))
      (path ++ py ".percentage is inconsistent with count / total (" ++ env.str percentage ++
        py " vs " ++ env.str (.float (.finite expected)) ++ py ")")
  | some _ => throw (outputValidationError (path ++ py ".percentage must be finite and in [0, 100]"))

/-- The count and the percentage of a finding. -/
def validateCount (path : PyStr) (total : ℤ) (physical : Option ℕ) (finding : Json.Fields) :
    Except PyError Unit :=
  match natural (finding.get (py "count")) with
  | none => throw (outputValidationError (path ++ py ".count must be a non-negative integer"))
  | some count => do
    refuse (decide (total < count)) (path ++ py ".count cannot exceed total_entries")
    refuse (physical.any fun n => n < count)
      (path ++ py ".physical_entry_count cannot be less than count")
    validatePercentage env path count total (finding.get (py "percentage"))

/-- The shares of a finding: an unquantified one has none. -/
def validateShares (path : PyStr) (total : ℤ) (physical : Option ℕ) (finding : Json.Fields) :
    Except PyError Unit :=
  if isUnquantified (finding.get (py "pattern_ids")) then
    refuse (!((finding.get (py "count")).isNull && (finding.get (py "percentage")).isNull))
      (path ++ py " unquantified findings must not claim count or percentage")
  else validateCount env path total physical finding

/-- One turn of the loop over the findings. -/
def validateFinding (path : PyStr) (total : ℤ) (seen : Seen) (finding : Json) :
    Except PyError Seen :=
  match finding with
  | .obj fields => do
    let id ← validateId path seen fields
    ["label_zh", "label_en", "detail_zh", "detail_en"].forM (validateText path fields)
    let ids ← validatePatternIds path seen fields
    validateEvidence path fields
    let physical ← validateEntryCounts path total fields
    validateShares env path total physical fields
    return ⟨seen.ids ++ ids, seen.findingIds ++ [id]⟩
  | _ => throw (outputValidationError (path ++ py " must be an object"))

/-- The path of a finding. -/
def findingPath (label name : PyStr) (index : ℕ) : PyStr :=
  label ++ py "." ++ name ++ py "[" ++ .ofNat index ++ py "]"

/-- The loop over one group. -/
def validateGroup (label : PyStr) (total : ℤ) (result : Json.Fields) (seen : Seen)
    (name : PyStr) : Except PyError Seen :=
  match result.get name with
  | .arr items => items.zipIdx.foldlM (fun seen item =>
      validateFinding env (findingPath label name item.2) total seen item.1) seen
  | _ => throw (outputValidationError (label ++ py "." ++ name ++ py " must be a list"))

/-! ## The details -/

/-- The objects among the findings of a group, with their places. -/
def placedFindings (result : Json.Fields) (name : PyStr) :
    Except PyError (List (Json.Fields × ℕ)) := do
  let items ← ((result.get name).or (.arr [])).iter
  return items.zipIdx.filterMap fun item => match item.1 with
    | .obj fields => some (fields, item.2)
    | _ => none

/-- A detail of a finding, if it is a text: not too long, and complete. -/
def validateDetail (path name : PyStr) (maximumLength maximumSentences : ℕ)
    (finding : Json.Fields) (field : String) : Except PyError Unit :=
  match finding.get (py field) with
  | .str value => do
    let path := path ++ py "." ++ py field
    refuse (decide (maximumLength < value.length)) (path ++ py " is too long for " ++ name)
    refuse (decide (maximumSentences < sentenceCount value))
      (path ++ py " must be no more than " ++ .ofNat maximumSentences ++ py " sentence")
    validateNarrativeCompletion env value path
  | _ => return

/-- The limits of the details of a group. -/
def detailLimits : List (PyStr × ℕ × ℕ) :=
  [(py "key_finds", 600, 3), (py "secondary_finds", 320, 1)]

/-- `_validate_finding_detail_density`. -/
def validateFindingDetailDensity (label : PyStr) (result : Json.Fields) : Except PyError Unit :=
  detailLimits.forM fun (name, maximumLength, maximumSentences) => do
    let items ← placedFindings result name
    items.forM fun (finding, index) =>
      ["detail_zh", "detail_en"].forM
        (validateDetail env (findingPath label name index) name maximumLength maximumSentences
          finding)

/-- The long details in one language, each with its place. -/
def longDetails (suffix : String) (items : List (Json.Fields × ℕ)) : List (PyStr × ℕ) :=
  items.filterMap fun (finding, index) => match finding.get (py ("detail" ++ suffix)) with
    | .str detail =>
      let compact := compactNarrativeKey env detail
      if compact.length < 32 then none else some (compact, index)
    | _ => none

/-- One turn of the loop over the long details: none of them is part of the summary, nor has been
seen before. -/
def validateUnrepeated (label name : PyStr) (suffix : String) (summary : PyStr)
    (seen : List PyStr) (item : PyStr × ℕ) : Except PyError (List PyStr) := do
  let path := findingPath label name item.2 ++ py (".detail" ++ suffix)
  refuse (hasText item.1 summary)
    (path ++ py (" repeats its full explanation in summary" ++ suffix))
  refuse (seen.contains item.1) (path ++ py " repeats another finding detail")
  return seen ++ [item.1]

/-- `_validate_repetition`. -/
def validateRepetition (label : PyStr) (result : Json.Fields) : Except PyError Unit :=
  ["_zh", "_en"].forM fun suffix => match result.get (py ("summary" ++ suffix)) with
    | .str summary => do
      let compact := compactNarrativeKey env summary
      let _ ← groupNames.foldlM (fun seen name => do
        let items ← placedFindings result name
        (longDetails env suffix items).foldlM (validateUnrepeated label name suffix compact) seen)
        []
      return
    | _ => return

/-- `_analysis_text`. -/
def analysisText (result : Json.Fields) : Except PyError PyStr := do
  let keyFinds ← placedFindings result (py "key_finds")
  let secondaryFinds ← placedFindings result (py "secondary_finds")
  let values := ["summary_en", "summary_zh"].map (fun key => result.get (py key)) ++
    (keyFinds ++ secondaryFinds).flatMap fun item =>
      ["label_en", "label_zh", "detail_en", "detail_zh"].map fun key => item.1.get (py key)
  return joinText (py "\n") (textsOf values)

/-- The text asserts a cause without negating it or naming evidence. -/
def unsupportedCause (text : PyStr) : Bool :=
  (occurs env (sharedCausationRegex env) text || occurs env (speculativeCausationRegex env) text) &&
    !occurs env (causationNegationRegex env) text && !occurs env (linkingEvidenceRegex env) text

/-- `_validate_causation_language`. -/
def validateCausationLanguage (label : PyStr) (result : Json.Fields) : Except PyError Unit := do
  let text ← analysisText result
  refuse (unsupportedCause env text) (label ++ py " contains an unsupported causal assertion; " ++
    py "temporal coexistence is not causal evidence")

/-- `validate_log_triage_result`. -/
def validateLogTriageResult (label : PyStr) (result : Json.Fields) : Except PyError Unit := do
  match natural (result.get (py "total_entries")) with
  | none => throw (outputValidationError
      (label ++ py ".total_entries must be a non-negative integer"))
  | some total =>
    ["summary_zh", "summary_en"].forM (validateSummary env label result)
    let _ ← groupNames.foldlM (validateGroup env label total result) ⟨[], []⟩
    validateFindingDetailDensity env label result
    validateRepetition env label result
    validateCausationLanguage env label result

end Checks

/-! ## What is accepted -/

section Accepts

variable {env : Env}

@[simp] lemma refuse_eq_ok {bad : Bool} {message : PyStr} {u : Unit} :
    refuse bad message = .ok u ↔ bad = false := by
  cases bad with
  | true => simp [refuse, throw, throwThe, MonadExceptOf.throw]
  | false => simp [refuse, pure, Except.pure]

/-- What a check refuses does not depend on its message. -/
lemma refuse_agree (bad : Bool) (message message' : PyStr) :
    Except.Agree (refuse bad message) (refuse bad message') := by
  intro u
  rw [refuse_eq_ok, refuse_eq_ok]

lemma throw_agree {α : Type} (e e' : PyError) :
    Except.Agree (throw e : Except PyError α) (throw e') := by
  intro a
  exact ⟨fun h => absurd h Except.throw_ne_ok, fun h => absurd h Except.throw_ne_ok⟩

/-- A loop of checks succeeds when each of them does. -/
lemma forM_eq_ok {α : Type} {f : α → Except PyError Unit} {xs : List α} {u : Unit} :
    xs.forM f = .ok u ↔ ∀ x ∈ xs, f x = .ok () := by
  induction xs with
  | nil => simp [pure, Except.pure]
  | cons x xs ih =>
    rw [List.forM_eq_forM, List.forM_cons, Except.bind_eq_ok, List.forall_mem_cons, ← ih]
    exact ⟨fun ⟨_, hx, hxs⟩ => ⟨hx, hxs⟩, fun ⟨hx, hxs⟩ => ⟨(), hx, hxs⟩⟩

lemma validateNarrativeCompletion_agree (value path path' : PyStr) :
    Except.Agree (validateNarrativeCompletion env value path)
      (validateNarrativeCompletion env value path') := by
  unfold validateNarrativeCompletion
  exact (refuse_agree _ _ _).bind fun _ _ => (refuse_agree _ _ _).bind fun _ _ =>
    (refuse_agree _ _ _).bind fun _ _ => refuse_agree _ _ _

/-- A summary is accepted with one label when it is with another. -/
lemma validateSummary_agree (label label' : PyStr) (result : Json.Fields) (field : String) :
    Except.Agree (validateSummary env label result field)
      (validateSummary env label' result field) := by
  unfold validateSummary
  dsimp only
  split
  · exact (refuse_agree _ _ _).bind fun _ _ => (refuse_agree _ _ _).bind fun _ _ =>
      (validateNarrativeCompletion_agree _ _ _).bind fun _ _ => refuse_agree _ _ _
  · exact throw_agree _ _

lemma validateDetail_agree (path path' name name' : PyStr) (length sentences : ℕ)
    (finding : Json.Fields) (field : String) :
    Except.Agree (validateDetail env path name length sentences finding field)
      (validateDetail env path' name' length sentences finding field) := by
  unfold validateDetail
  split
  · exact (refuse_agree _ _ _).bind fun _ _ => (refuse_agree _ _ _).bind fun _ _ =>
      validateNarrativeCompletion_agree _ _ _
  · exact .refl _

/-! ## One finding -/

/-- Nothing has been seen. -/
def Seen.none : Seen := ⟨[], []⟩

/-- What has been seen after more has been. -/
def Seen.append (seen own : Seen) : Seen :=
  ⟨seen.ids ++ own.ids, seen.findingIds ++ own.findingIds⟩

lemma validateId_eq_ok {path id : PyStr} {seen : Seen} {finding : Json.Fields} :
    validateId path seen finding = .ok id ↔
      validateId [] .none finding = .ok id ∧ id ∉ seen.findingIds := by
  unfold validateId
  split
  · next s hs =>
    simp only [Except.bind_eq_ok, refuse_eq_ok, Except.pure_eq_ok, Seen.none]
    constructor
    · rintro ⟨-, hblank, -, hseen, rfl⟩
      exact ⟨⟨(), hblank, (), rfl, rfl⟩, by simpa using hseen⟩
    · rintro ⟨⟨-, hblank, -, -, rfl⟩, hseen⟩
      exact ⟨(), hblank, (), by simpa using hseen, rfl⟩
  · exact ⟨fun h => absurd h Except.throw_ne_ok, fun h => absurd h.1 Except.throw_ne_ok⟩

lemma validatePatternIds_eq_ok {path : PyStr} {ids : List PyStr} {seen : Seen}
    {finding : Json.Fields} :
    validatePatternIds path seen finding = .ok ids ↔
      validatePatternIds [] .none finding = .ok ids ∧ ∀ id ∈ ids, id ∉ seen.ids := by
  unfold validatePatternIds
  split
  · next item items _ =>
    dsimp only
    generalize (item :: items).filterMap nonEmptyId = own
    simp only [Except.bind_eq_ok, refuse_eq_ok, Seen.none]
    have hfresh : own.find? seen.ids.contains = none ↔ ∀ id ∈ own, id ∉ seen.ids := by
      simp [List.find?_eq_none]
    have hnone : own.find? ([] : List PyStr).contains = none := by simp [List.find?_eq_none]
    constructor
    · rintro ⟨-, hinvalid, -, hduplicate, h⟩
      split at h
      · exact absurd h Except.throw_ne_ok
      · next hown =>
        cases h
        refine ⟨⟨(), hinvalid, (), hduplicate, ?_⟩, hfresh.mp hown⟩
        rw [hnone]
        rfl
    · rintro ⟨⟨-, hinvalid, -, hduplicate, h⟩, hseen⟩
      rw [hnone] at h
      cases h
      refine ⟨(), hinvalid, (), hduplicate, ?_⟩
      rw [hfresh.mpr hseen]
      rfl
  · exact ⟨fun h => absurd h Except.throw_ne_ok, fun h => absurd h.1 Except.throw_ne_ok⟩

/-- The patterns that are accepted are a list of texts. -/
lemma texts_of_validatePatternIds {path : PyStr} {ids : List PyStr} {seen : Seen}
    {finding : Json.Fields} (h : validatePatternIds path seen finding = .ok ids) :
    Json.Fields.get finding (py "pattern_ids") = texts ids := by
  have htexts : ∀ items : List Json, (∀ v ∈ items, (nonEmptyId v).isSome = true) →
      items = (items.filterMap nonEmptyId).map Json.str := by
    intro items hall
    induction items with
    | nil => rfl
    | cons v items ih =>
      obtain ⟨hv, hrest⟩ := List.forall_mem_cons.mp hall
      obtain ⟨c, cs, rfl⟩ : ∃ c cs, v = .str (c :: cs) := by
        cases v with
        | str text =>
          cases text with
          | nil => cases hv
          | cons c cs => exact ⟨c, cs, rfl⟩
        | null | bool | int | float | arr | obj => cases hv
      exact congrArg (List.cons _) (ih hrest)
  unfold validatePatternIds at h
  split at h
  · next item items hitems =>
    obtain ⟨⟨⟩, hlength, h⟩ := Except.bind_eq_ok.mp h
    obtain ⟨⟨⟩, -, h⟩ := Except.bind_eq_ok.mp h
    rw [refuse_eq_ok, bne_eq_false_iff_eq, List.filterMap_length_eq_length] at hlength
    split at h
    · exact absurd h Except.throw_ne_ok
    · cases h
      exact hitems.trans (congrArg Json.arr (htexts _ hlength))
  · exact absurd h Except.throw_ne_ok

lemma validateText_agree (path path' : PyStr) (finding : Json.Fields) (field : String) :
    Except.Agree (validateText path finding field) (validateText path' finding field) := by
  unfold validateText
  split
  · exact refuse_agree _ _ _
  · exact throw_agree _ _

lemma validateEvidence_agree (path path' : PyStr) (finding : Json.Fields) :
    Except.Agree (validateEvidence path finding) (validateEvidence path' finding) := by
  unfold validateEvidence
  split
  · exact .refl _
  · exact (refuse_agree _ _ _).bind fun _ _ => refuse_agree _ _ _
  · exact throw_agree _ _

lemma validateEntryCounts_agree (path path' : PyStr) (total : ℤ) (finding : Json.Fields) :
    Except.Agree (validateEntryCounts path total finding)
      (validateEntryCounts path' total finding) := by
  have hcount : ∀ (v : Json) (m m' : PyStr), Except.Agree
      (match v with
        | .null => pure none
        | v => match natural v with
          | some n => pure (some n)
          | none => throw (outputValidationError m) : Except PyError (Option ℕ))
      (match v with
        | .null => pure none
        | v => match natural v with
          | some n => pure (some n)
          | none => throw (outputValidationError m')) := by
    intro v m m'
    split
    · exact .refl _
    · split
      · exact .refl _
      · exact throw_agree _ _
  unfold validateEntryCounts
  exact (hcount _ _ _).bind fun _ _ => (refuse_agree _ _ _).bind fun _ _ =>
    (hcount _ _ _).bind fun _ _ => (refuse_agree _ _ _).bind fun _ _ => .refl _

lemma validatePercentage_agree (path path' : PyStr) (count : ℕ) (total : ℤ) (percentage : Json) :
    Except.Agree (validatePercentage env path count total percentage)
      (validatePercentage env path' count total percentage) := by
  unfold validatePercentage
  refine (Except.Agree.refl _).bind fun f _ => ?_
  split
  · exact throw_agree _ _
  · exact (refuse_agree _ _ _).bind fun _ _ => refuse_agree _ _ _
  · exact throw_agree _ _

lemma validateCount_agree (path path' : PyStr) (total : ℤ) (physical : Option ℕ)
    (finding : Json.Fields) :
    Except.Agree (validateCount env path total physical finding)
      (validateCount env path' total physical finding) := by
  unfold validateCount
  split
  · exact throw_agree _ _
  · exact (refuse_agree _ _ _).bind fun _ _ => (refuse_agree _ _ _).bind fun _ _ =>
      validatePercentage_agree _ _ _ _ _

lemma validateShares_agree (path path' : PyStr) (total : ℤ) (physical : Option ℕ)
    (finding : Json.Fields) :
    Except.Agree (validateShares env path total physical finding)
      (validateShares env path' total physical finding) := by
  unfold validateShares
  split
  · exact refuse_agree _ _ _
  · exact validateCount_agree _ _ _ _ _

/-- What a finding is accepted as when nothing has been seen. -/
abbrev acceptedAlone (env : Env) (total : ℤ) (finding : Json) : Except PyError Seen :=
  validateFinding env [] total .none finding

/-- How a finding is accepted: check by check. -/
lemma validateFinding_obj {path : PyStr} {total : ℤ} {seen seen' : Seen} {fields : Json.Fields} :
    validateFinding env path total seen (.obj fields) = .ok seen' ↔
      ∃ id ids physical, validateId path seen fields = .ok id ∧
        (∀ field ∈ ["label_zh", "label_en", "detail_zh", "detail_en"],
          validateText path fields field = .ok ()) ∧
        validatePatternIds path seen fields = .ok ids ∧ validateEvidence path fields = .ok () ∧
        validateEntryCounts path total fields = .ok physical ∧
        validateShares env path total physical fields = .ok () ∧
        seen' = seen.append ⟨ids, [id]⟩ := by
  unfold validateFinding
  simp only [Except.bind_eq_ok, Except.pure_eq_ok, forM_eq_ok]
  constructor
  · rintro ⟨id, hid, -, htexts, ids, hids, ⟨⟩, hevidence, physical, hphysical, ⟨⟩, hshares, rfl⟩
    exact ⟨id, ids, physical, hid, htexts, hids, hevidence, hphysical, hshares, rfl⟩
  · rintro ⟨id, ids, physical, hid, htexts, hids, hevidence, hphysical, hshares, rfl⟩
    exact ⟨id, hid, (), htexts, ids, hids, (), hevidence, physical, hphysical, (), hshares, rfl⟩

/-- **A finding is accepted** when it is accepted alone and its identities are new. -/
lemma validateFinding_eq_ok {path : PyStr} {total : ℤ} {seen seen' : Seen} {finding : Json} :
    validateFinding env path total seen finding = .ok seen' ↔
      ∃ own, acceptedAlone env total finding = .ok own ∧ (∀ id ∈ own.ids, id ∉ seen.ids) ∧
        (∀ id ∈ own.findingIds, id ∉ seen.findingIds) ∧ seen' = seen.append own := by
  cases finding with
  | obj fields =>
    unfold acceptedAlone
    simp only [validateFinding_obj]
    constructor
    · rintro ⟨id, ids, physical, hid, htexts, hids, hevidence, hphysical, hshares, rfl⟩
      rw [validateId_eq_ok] at hid
      rw [validatePatternIds_eq_ok] at hids
      refine ⟨⟨ids, [id]⟩, ⟨id, ids, physical, hid.1, fun field hfield => ?_, hids.1, ?_, ?_, ?_, rfl⟩,
        hids.2, by simpa using hid.2, rfl⟩
      · exact (validateText_agree _ _ _ _ _).mp (htexts field hfield)
      · exact (validateEvidence_agree _ _ _ _).mp hevidence
      · exact (validateEntryCounts_agree _ _ _ _ _).mp hphysical
      · exact (validateShares_agree _ _ _ _ _ _).mp hshares
    · rintro ⟨own, ⟨id, ids, physical, hid, htexts, hids, hevidence, hphysical, hshares, rfl⟩,
        hfreshIds, hfresh, rfl⟩
      have hfresh : id ∉ seen.findingIds := hfresh id (by simp [Seen.append, Seen.none])
      refine ⟨id, ids, physical, validateId_eq_ok.mpr ⟨hid, hfresh⟩, fun field hfield => ?_,
        validatePatternIds_eq_ok.mpr ⟨hids, hfreshIds⟩, ?_, ?_, ?_, rfl⟩
      · exact (validateText_agree _ _ _ _ _).mp (htexts field hfield)
      · exact (validateEvidence_agree _ _ _ _).mp hevidence
      · exact (validateEntryCounts_agree _ _ _ _ _).mp hphysical
      · exact (validateShares_agree _ _ _ _ _ _).mp hshares
  | null | bool | int | float | str | arr =>
    constructor
    · intro h
      exact absurd h Except.throw_ne_ok
    · rintro ⟨own, h, -⟩
      exact absurd h Except.throw_ne_ok

/-- The identities of an accepted finding are different. -/
lemma nodup_of_acceptedAlone {total : ℤ} {finding : Json} {own : Seen}
    (h : acceptedAlone env total finding = .ok own) : own.ids.Nodup ∧ own.findingIds.Nodup := by
  cases finding with
  | obj fields =>
    obtain ⟨id, ids, physical, -, -, hids, -, -, -, rfl⟩ := validateFinding_obj.mp h
    refine ⟨?_, List.nodup_singleton id⟩
    show ids.Nodup
    unfold validatePatternIds at hids
    split at hids
    · simp only [Except.bind_eq_ok, refuse_eq_ok] at hids
      obtain ⟨-, -, -, hduplicate, hids⟩ := hids
      split at hids
      · exact absurd hids Except.throw_ne_ok
      · cases hids
        exact List.nodup_of_length_eraseDups (by simpa using hduplicate)
    · exact absurd hids Except.throw_ne_ok
  | null | bool | int | float | str | arr => exact absurd h Except.throw_ne_ok

/-! ## All findings -/

/-- The identities of a finding. -/
def identityOf (env : Env) (total : ℤ) (finding : Json) : Seen :=
  match acceptedAlone env total finding with
  | .ok own => own
  | .error _ => .none

/-- Findings that are accepted after `seen`: each of them alone, and with identities that are new
and different. -/
structure FindingsAccepted (env : Env) (total : ℤ) (seen : Seen) (found : List Json) : Prop where
  alone : ∀ finding ∈ found, ∃ own, acceptedAlone env total finding = .ok own
  ids : (seen.ids ++ found.flatMap fun f => (identityOf env total f).ids).Nodup
  findingIds : (seen.findingIds ++ found.flatMap fun f => (identityOf env total f).findingIds).Nodup

/-- The identities of some findings. -/
def identitiesOf (env : Env) (total : ℤ) (found : List Json) : Seen :=
  ⟨found.flatMap fun f => (identityOf env total f).ids,
    found.flatMap fun f => (identityOf env total f).findingIds⟩

lemma foldlM_validateFinding {path : ℕ → PyStr} {total : ℤ} {seen seen' : Seen}
    {items : List (Json × ℕ)} (hids : seen.ids.Nodup) (hfindingIds : seen.findingIds.Nodup) :
    items.foldlM (fun seen item => validateFinding env (path item.2) total seen item.1) seen =
        .ok seen' ↔
      FindingsAccepted env total seen (items.map (·.1)) ∧
        seen' = seen.append (identitiesOf env total (items.map (·.1))) := by
  induction items generalizing seen with
  | nil =>
    rw [List.foldlM_nil, Except.pure_eq_ok]
    constructor
    · rintro rfl
      exact ⟨⟨by simp, by simpa using hids, by simpa using hfindingIds⟩,
        by simp [Seen.append, identitiesOf]⟩
    · rintro ⟨-, rfl⟩
      simp [Seen.append, identitiesOf]
  | cons item items ih =>
    rw [List.foldlM_cons, Except.bind_eq_ok, List.map_cons]
    constructor
    · rintro ⟨after, hfinding, hrest⟩
      obtain ⟨own, halone, hfresh, hfresh', rfl⟩ := validateFinding_eq_ok.mp hfinding
      obtain ⟨hown, hown'⟩ := nodup_of_acceptedAlone halone
      have hidentity : identityOf env total item.1 = own := by rw [identityOf, halone]
      obtain ⟨haccepted, rfl⟩ := (ih (hids.append hown fun id hid hid' => hfresh id hid' hid)
        (hfindingIds.append hown' fun id hid hid' => hfresh' id hid' hid)).mp hrest
      refine ⟨⟨?_, ?_, ?_⟩, ?_⟩
      · exact List.forall_mem_cons.mpr ⟨⟨own, halone⟩, haccepted.alone⟩
      · rw [List.flatMap_cons, hidentity, ← List.append_assoc]
        exact haccepted.ids
      · rw [List.flatMap_cons, hidentity, ← List.append_assoc]
        exact haccepted.findingIds
      · simp [Seen.append, identitiesOf, hidentity]
    · rintro ⟨⟨halone, hnodup, hnodup'⟩, rfl⟩
      obtain ⟨⟨own, hown⟩, hothers⟩ := List.forall_mem_cons.mp halone
      have hidentity : identityOf env total item.1 = own := by rw [identityOf, hown]
      rw [List.flatMap_cons, hidentity, ← List.append_assoc] at hnodup hnodup'
      obtain ⟨hfirst, -, -⟩ := List.nodup_append.mp hnodup
      obtain ⟨hfirst', -, -⟩ := List.nodup_append.mp hnodup'
      refine ⟨seen.append own, validateFinding_eq_ok.mpr ⟨own, hown, ?_, ?_, rfl⟩, ?_⟩
      · exact fun id hid hid' => (List.nodup_append.mp hfirst).2.2 id hid' id hid rfl
      · exact fun id hid hid' => (List.nodup_append.mp hfirst').2.2 id hid' id hid rfl
      · refine (ih hfirst hfirst').mpr ⟨⟨hothers, hnodup, hnodup'⟩, ?_⟩
        simp [Seen.append, identitiesOf, hidentity]

lemma findingsAccepted_append {total : ℤ} {seen : Seen} {found rest : List Json} :
    FindingsAccepted env total seen (found ++ rest) ↔ FindingsAccepted env total seen found ∧
      FindingsAccepted env total (seen.append (identitiesOf env total found)) rest := by
  constructor
  · rintro ⟨halone, hids, hfindingIds⟩
    rw [List.flatMap_append, ← List.append_assoc] at hids hfindingIds
    have hfirst := List.forall_mem_append.mp halone
    exact ⟨⟨hfirst.1, (List.nodup_append.mp hids).1, (List.nodup_append.mp hfindingIds).1⟩,
      ⟨hfirst.2, hids, hfindingIds⟩⟩
  · rintro ⟨hfound, hrest⟩
    refine ⟨List.forall_mem_append.mpr ⟨hfound.alone, hrest.alone⟩, ?_, ?_⟩
    · rw [List.flatMap_append, ← List.append_assoc]
      exact hrest.ids
    · rw [List.flatMap_append, ← List.append_assoc]
      exact hrest.findingIds

/-- The loop over one group. -/
lemma validateGroup_eq_ok {label name : PyStr} {total : ℤ} {result : Json.Fields}
    {seen seen' : Seen} (hids : seen.ids.Nodup) (hfindingIds : seen.findingIds.Nodup) :
    validateGroup env label total result seen name = .ok seen' ↔
      (∃ items, result.get name = .arr items) ∧
        FindingsAccepted env total seen (groupItems result name) ∧
        seen' = seen.append (identitiesOf env total (groupItems result name)) := by
  unfold validateGroup
  split
  · next items hitems =>
    have hgroup : groupItems result name = items := by rw [groupItems, hitems]
    rw [hgroup, foldlM_validateFinding hids hfindingIds, List.zipIdx_map_fst]
    have hlist : ∃ xs, result.get name = .arr xs := ⟨items, hitems⟩
    exact (and_iff_right hlist).symm
  · next hne =>
    constructor
    · intro h
      exact absurd h Except.throw_ne_ok
    · rintro ⟨⟨items, hitems⟩, -⟩
      exact absurd hitems (hne items)

/-- The loop over both groups. -/
lemma validateGroups_eq_ok {label : PyStr} {total : ℤ} {result : Json.Fields} :
    (∃ seen, groupNames.foldlM (validateGroup env label total result) .none = .ok seen) ↔
      (∀ name ∈ groupNames, ∃ items, result.get name = .arr items) ∧
        FindingsAccepted env total .none (findings result) := by
  simp only [groupNames, List.foldlM_cons, List.foldlM_nil, Except.bind_eq_ok, Except.pure_eq_ok,
    List.forall_mem_cons, List.not_mem_nil, false_imp_iff, forall_const, and_true]
  rw [findings_eq, findingsAccepted_append]
  constructor
  · rintro ⟨-, after, hkey, last, hsecondary, -⟩
    obtain ⟨hlist, haccepted, rfl⟩ :=
      (validateGroup_eq_ok List.nodup_nil List.nodup_nil).mp hkey
    obtain ⟨hids, hfindingIds⟩ := And.intro haccepted.ids haccepted.findingIds
    obtain ⟨hlist', haccepted', -⟩ := (validateGroup_eq_ok hids hfindingIds).mp hsecondary
    exact ⟨⟨hlist, hlist'⟩, haccepted, haccepted'⟩
  · rintro ⟨⟨hlist, hlist'⟩, haccepted, haccepted'⟩
    obtain ⟨hids, hfindingIds⟩ := And.intro haccepted.ids haccepted.findingIds
    exact ⟨_, _, (validateGroup_eq_ok List.nodup_nil List.nodup_nil).mpr ⟨hlist, haccepted, rfl⟩, _,
      (validateGroup_eq_ok hids hfindingIds).mpr ⟨hlist', haccepted', rfl⟩, rfl⟩

/-! ## The details of all findings -/

/-- The objects among some findings, with their places. -/
def placed (items : List Json) : List (Json.Fields × ℕ) :=
  items.zipIdx.filterMap fun item => match item.1 with
    | .obj fields => some (fields, item.2)
    | _ => none

lemma placedFindings_eq {result : Json.Fields} {name : PyStr} {items : List Json}
    (h : result.get name = .arr items) : placedFindings result name = .ok (placed items) := by
  rw [placedFindings, h, Json.iter_or_arr]
  rfl

lemma exists_mem_placed {items : List Json} {fields : Json.Fields} :
    (∃ index, (fields, index) ∈ placed items) ↔ .obj fields ∈ items := by
  simp only [placed, List.mem_filterMap, Prod.exists]
  constructor
  · rintro ⟨index, f, i, hmem, hf⟩
    split at hf
    · cases hf
      exact List.fst_mem_of_mem_zipIdx hmem
    · cases hf
  · intro hmem
    obtain ⟨i, hi, hget⟩ := List.mem_iff_getElem.mp hmem
    exact ⟨i, .obj fields, i, by
      rw [List.mem_zipIdx_iff_getElem?, List.getElem?_eq_getElem hi, hget], rfl⟩

/-- The details of a finding keep to the limits of a group. -/
def WithinLimits (env : Env) (maximumLength maximumSentences : ℕ) (finding : Json.Fields) : Prop :=
  ∀ field ∈ ["detail_zh", "detail_en"],
    validateDetail env [] [] maximumLength maximumSentences finding field = .ok ()

lemma validateFindingDetailDensity_eq_ok {label : PyStr} {result : Json.Fields}
    (hlists : ∀ name ∈ groupNames, ∃ items, result.get name = .arr items) :
    validateFindingDetailDensity env label result = .ok () ↔
      ∀ limit ∈ detailLimits, ∀ finding, .obj finding ∈ groupItems result limit.1 →
        WithinLimits env limit.2.1 limit.2.2 finding := by
  rw [validateFindingDetailDensity, forM_eq_ok]
  refine forall_congr' fun limit => forall_congr' fun hlimit => ?_
  have hname : limit.1 ∈ groupNames := by
    simp only [detailLimits, List.mem_cons, List.not_mem_nil, or_false] at hlimit
    rcases hlimit with rfl | rfl
    · exact List.mem_cons_self
    · exact List.mem_cons_of_mem _ List.mem_cons_self
  obtain ⟨items, hitems⟩ := hlists limit.1 hname
  have hgroup : groupItems result limit.1 = items := by rw [groupItems, hitems]
  dsimp only
  rw [placedFindings_eq hitems, Except.ok_bind, forM_eq_ok, hgroup]
  constructor
  · intro h finding hfinding field hfield
    obtain ⟨index, hmem⟩ := exists_mem_placed.mpr hfinding
    exact (validateDetail_agree _ _ _ _ _ _ _ _ _).mp (forM_eq_ok.mp (h _ hmem) field hfield)
  · rintro h ⟨finding, index⟩ hmem
    refine forM_eq_ok.mpr fun field hfield => ?_
    exact (validateDetail_agree _ _ _ _ _ _ _ _ _).mp
      (h finding (exists_mem_placed.mp ⟨index, hmem⟩) field hfield)

/-! ## Repetition and causation -/

/-- The long detail of a finding in one language, as it is compared with others. -/
def compactDetail (env : Env) (suffix : String) (finding : Json.Fields) : Option PyStr :=
  match finding.get (py ("detail" ++ suffix)) with
  | .str detail =>
    if (compactNarrativeKey env detail).length < 32 then none
    else some (compactNarrativeKey env detail)
  | _ => none

/-- The long details of some findings. -/
def compactDetails (env : Env) (suffix : String) (found : List Json) : List PyStr :=
  found.filterMap fun finding => match finding with
    | .obj fields => compactDetail env suffix fields
    | _ => none

lemma longDetails_placed (suffix : String) (items : List Json) :
    (longDetails env suffix (placed items)).map (·.1) = compactDetails env suffix items := by
  have hindexed : ∀ indexed : List (Json × ℕ),
      (longDetails env suffix (indexed.filterMap fun item => match item.1 with
        | .obj fields => some (fields, item.2)
        | _ => none)).map (·.1) = compactDetails env suffix (indexed.map (·.1)) := by
    intro indexed
    unfold longDetails compactDetails compactDetail
    rw [List.filterMap_filterMap, List.map_filterMap, List.filterMap_map]
    refine List.filterMap_congr fun item _ => ?_
    obtain ⟨finding, index⟩ := item
    cases finding with
    | obj fields =>
      simp only [Option.bind_some, Function.comp_apply]
      split
      · split <;> rfl
      · rfl
    | null | bool | int | float | str | arr => rfl
  rw [placed, hindexed, List.zipIdx_map_fst]

lemma validateUnrepeated_eq_ok {label name summary : PyStr} {suffix : String}
    {item : PyStr × ℕ} {seen seen' : List PyStr} :
    validateUnrepeated label name suffix summary seen item = .ok seen' ↔
      hasText item.1 summary = false ∧ item.1 ∉ seen ∧ seen' = seen ++ [item.1] := by
  have hcontains : seen.contains item.1 = false ↔ item.1 ∉ seen := by simp
  unfold validateUnrepeated
  rw [← hcontains]
  constructor
  · intro h
    obtain ⟨⟨⟩, hsummary, h⟩ := Except.bind_eq_ok.mp h
    obtain ⟨⟨⟩, hnew, h⟩ := Except.bind_eq_ok.mp h
    exact ⟨refuse_eq_ok.mp hsummary, refuse_eq_ok.mp hnew, (Except.pure_eq_ok.mp h).symm⟩
  · rintro ⟨hsummary, hnew, rfl⟩
    rw [hsummary, hnew]
    rfl

/-- The loop over some long details. -/
lemma foldlM_validateUnrepeated {label name summary : PyStr} {suffix : String}
    {items : List (PyStr × ℕ)} {seen seen' : List PyStr} (hseen : seen.Nodup) :
    items.foldlM (validateUnrepeated label name suffix summary) seen = .ok seen' ↔
      (∀ detail ∈ items.map (·.1), hasText detail summary = false) ∧
        (seen ++ items.map (·.1)).Nodup ∧ seen' = seen ++ items.map (·.1) := by
  induction items generalizing seen with
  | nil =>
    rw [List.foldlM_nil, Except.pure_eq_ok, List.map_nil, List.append_nil]
    constructor
    · rintro rfl
      exact ⟨fun detail h => absurd h List.not_mem_nil, hseen, rfl⟩
    · exact fun h => h.2.2.symm
  | cons item items ih =>
    rw [List.foldlM_cons, Except.bind_eq_ok, List.map_cons, List.forall_mem_cons,
      List.append_cons]
    constructor
    · rintro ⟨after, hitem, hrest⟩
      obtain ⟨hsummary, hnew, rfl⟩ := validateUnrepeated_eq_ok.mp hitem
      have hnodup : (seen ++ [item.1]).Nodup :=
        hseen.append (List.nodup_singleton _) (List.disjoint_singleton.mpr hnew)
      obtain ⟨hdetails, hall, rfl⟩ := (ih hnodup).mp hrest
      exact ⟨⟨hsummary, hdetails⟩, hall, rfl⟩
    · rintro ⟨⟨hsummary, hdetails⟩, hall, rfl⟩
      have hnodup : (seen ++ [item.1]).Nodup := (List.nodup_append.mp hall).1
      have hnew : item.1 ∉ seen := fun hmem =>
        (List.nodup_append.mp hnodup).2.2 item.1 hmem item.1 List.mem_cons_self rfl
      exact ⟨_, validateUnrepeated_eq_ok.mpr ⟨hsummary, hnew, rfl⟩,
        (ih hnodup).mpr ⟨hdetails, hall, rfl⟩⟩

/-- No long detail is part of the summary or repeated, in one language. -/
def Unrepeated (env : Env) (result : Json.Fields) (suffix : String) : Prop :=
  ∀ summary, result.get (py ("summary" ++ suffix)) = .str summary →
    (∀ detail ∈ compactDetails env suffix (findings result),
      hasText detail (compactNarrativeKey env summary) = false) ∧
    (compactDetails env suffix (findings result)).Nodup

lemma validateRepetition_eq_ok {label : PyStr} {result : Json.Fields}
    (hlists : ∀ name ∈ groupNames, ∃ items, result.get name = .arr items) :
    validateRepetition env label result = .ok () ↔
      ∀ suffix ∈ ["_zh", "_en"], Unrepeated env result suffix := by
  rw [validateRepetition, forM_eq_ok]
  refine forall_congr' fun suffix => forall_congr' fun _ => ?_
  obtain ⟨key, hkey⟩ := hlists (py "key_finds") List.mem_cons_self
  obtain ⟨secondary, hsecondary⟩ :=
    hlists (py "secondary_finds") (List.mem_cons_of_mem _ List.mem_cons_self)
  have hfindings : findings result = key ++ secondary := by
    rw [findings_eq, groupItems, groupItems, hkey, hsecondary]
  unfold Unrepeated
  split
  · next summary hsummary =>
    rw [hfindings]
    have hdetails : compactDetails env suffix (key ++ secondary) =
        compactDetails env suffix key ++ compactDetails env suffix secondary :=
      List.filterMap_append
    simp only [groupNames, List.foldlM_cons, List.foldlM_nil, placedFindings_eq hkey,
      placedFindings_eq hsecondary, Except.ok_bind, hsummary, Json.str.injEq, forall_eq', hdetails,
      List.forall_mem_append]
    constructor
    · intro h
      obtain ⟨last, h, -⟩ := Except.bind_eq_ok.mp h
      obtain ⟨seen, hfirst, h⟩ := Except.bind_eq_ok.mp h
      obtain ⟨last', hsecond, -⟩ := Except.bind_eq_ok.mp h
      obtain ⟨hsum, hnodup, rfl⟩ := (foldlM_validateUnrepeated List.nodup_nil).mp hfirst
      obtain ⟨hsum', hnodup', -⟩ := (foldlM_validateUnrepeated hnodup).mp hsecond
      rw [longDetails_placed] at hsum hsum' hnodup'
      rw [longDetails_placed] at hnodup'
      exact ⟨⟨hsum, hsum'⟩, hnodup'⟩
    · rintro ⟨⟨hsum, hsum'⟩, hnodup⟩
      have hfirst := (List.nodup_append.mp hnodup).1
      rw [← longDetails_placed] at hsum hsum' hfirst
      rw [← longDetails_placed, ← longDetails_placed] at hnodup
      rw [(foldlM_validateUnrepeated List.nodup_nil).mpr ⟨hsum, hfirst, rfl⟩, Except.ok_bind,
        List.nil_append, (foldlM_validateUnrepeated hfirst).mpr ⟨hsum', hnodup, rfl⟩]
      rfl
  · next hnone =>
    exact ⟨fun _ summary hsummary => absurd hsummary (hnone summary), fun _ => rfl⟩

/-- The labels and details of a finding. -/
def narrativesOf (finding : Json) : List Json :=
  match finding with
  | .obj fields => ["label_en", "label_zh", "detail_en", "detail_zh"].map fun key =>
      Json.Fields.get fields (py key)
  | _ => []

/-- The text of a result that causes are looked for in. -/
def causationText (result : Json.Fields) : PyStr :=
  joinText (py "\n") (textsOf (["summary_en", "summary_zh"].map (fun key => result.get (py key)) ++
    (findings result).flatMap narrativesOf))

lemma flatMap_placed (items : List Json) :
    ((placed items).flatMap fun item =>
      ["label_en", "label_zh", "detail_en", "detail_zh"].map fun key => item.1.get (py key)) =
      items.flatMap narrativesOf := by
  have hindexed : ∀ indexed : List (Json × ℕ),
      ((indexed.filterMap fun item => match item.1 with
        | .obj fields => some (fields, item.2)
        | _ => none : List (Json.Fields × ℕ)).flatMap fun item =>
          ["label_en", "label_zh", "detail_en", "detail_zh"].map fun key => item.1.get (py key)) =
        (indexed.map (·.1)).flatMap narrativesOf := by
    intro indexed
    induction indexed with
    | nil => rfl
    | cons item indexed ih =>
      obtain ⟨finding, index⟩ := item
      rw [List.map_cons, List.flatMap_cons, ← ih]
      cases finding <;> rfl
  rw [placed, hindexed, List.zipIdx_map_fst]

lemma analysisText_eq {result : Json.Fields}
    (hlists : ∀ name ∈ groupNames, ∃ items, result.get name = .arr items) :
    analysisText result = .ok (causationText result) := by
  obtain ⟨key, hkey⟩ := hlists (py "key_finds") List.mem_cons_self
  obtain ⟨secondary, hsecondary⟩ :=
    hlists (py "secondary_finds") (List.mem_cons_of_mem _ List.mem_cons_self)
  have hfindings : findings result = key ++ secondary := by
    rw [findings_eq, groupItems, groupItems, hkey, hsecondary]
  rw [analysisText, placedFindings_eq hkey, placedFindings_eq hsecondary, Except.ok_bind,
    Except.ok_bind, causationText, hfindings, List.flatMap_append, List.flatMap_append,
    flatMap_placed, flatMap_placed]
  rfl

/-! ## The whole -/

/-- A result the checks accept. -/
structure Accepted (env : Env) (total : ℕ) (result : Json.Fields) : Prop where
  total_eq : natural (result.get (py "total_entries")) = some total
  summaries : ∀ field ∈ ["summary_zh", "summary_en"], validateSummary env [] result field = .ok ()
  lists : ∀ name ∈ groupNames, ∃ items, result.get name = .arr items
  accepted : FindingsAccepted env total .none (findings result)
  limits : ∀ limit ∈ detailLimits, ∀ finding, .obj finding ∈ groupItems result limit.1 →
    WithinLimits env limit.2.1 limit.2.2 finding
  unrepeated : ∀ suffix ∈ ["_zh", "_en"], Unrepeated env result suffix
  causation : unsupportedCause env (causationText result) = false

/-- **The checks accept exactly such results.** -/
theorem validateLogTriageResult_eq_ok {label : PyStr} {result : Json.Fields} :
    validateLogTriageResult env label result = .ok () ↔ ∃ total, Accepted env total result := by
  unfold validateLogTriageResult
  split
  · next hnone =>
    constructor
    · intro h
      exact absurd h Except.throw_ne_ok
    · rintro ⟨total, h⟩
      rw [h.total_eq] at hnone
      cases hnone
  · next total htotal =>
    simp only [Except.bind_eq_ok, forM_eq_ok]
    constructor
    · rintro ⟨⟨⟩, hsummaries, seen, hgroups, ⟨⟩, hdensity, ⟨⟩, hrepetition, hcausation⟩
      obtain ⟨hlists, haccepted⟩ := validateGroups_eq_ok.mp ⟨seen, hgroups⟩
      rw [validateCausationLanguage, analysisText_eq hlists, Except.ok_bind, refuse_eq_ok]
        at hcausation
      exact ⟨total, htotal, fun field hfield =>
        (validateSummary_agree _ _ _ _ _).mp (hsummaries field hfield), hlists, haccepted,
        (validateFindingDetailDensity_eq_ok hlists).mp hdensity,
        (validateRepetition_eq_ok hlists).mp hrepetition, hcausation⟩
    · rintro ⟨total', h⟩
      obtain rfl : total = total' := by
        have heq := h.total_eq
        rw [htotal] at heq
        exact Option.some.inj heq
      obtain ⟨seen, hgroups⟩ := validateGroups_eq_ok.mpr ⟨h.lists, h.accepted⟩
      refine ⟨(), fun field hfield => ?_, seen, hgroups, (),
        (validateFindingDetailDensity_eq_ok h.lists).mpr h.limits, (),
        (validateRepetition_eq_ok h.lists).mpr h.unrepeated, ?_⟩
      · exact (validateSummary_agree _ _ _ _ _).mp (h.summaries field hfield)
      · rw [validateCausationLanguage, analysisText_eq h.lists, Except.ok_bind, refuse_eq_ok]
        exact h.causation

end Accepts

end Triage
