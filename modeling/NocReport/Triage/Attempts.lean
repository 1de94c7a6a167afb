import NocReport.Foundation.Slices
import NocReport.Triage.Malformed
import NocReport.Triage.OutputSchema
import NocReport.Triage.Validation

set_option relaxedAutoImplicit false
set_option autoImplicit false

/-!
# The attempts at an output

The loop of `_process_log_triage_message` (`bridge/noc_bridge/worker.py`) that asks a model for a
result a bounded number of times. An answer is reconciled and checked; when that raises a
`ValueError` the next answer is asked for, and the last one gets a second chance in fallback mode,
where its narratives are shortened before they are checked.

## Main definitions

* `Triage.compactLogTriageNarrative` — `compact_log_triage_narrative`.
* `Triage.strictAttempt`, `Triage.fallbackAttempt` — the two ways an answer is tried.
* `Triage.processLogTriageMessage` — the loop.
* `Triage.Contained` — the loop ends with a validated output or with `HermesInvalidResponse`.

## Main results

* `Triage.raises_checkOutput` — the checks raise only `OutputValidationError`.
* `Triage.processLogTriageMessage_contained_iff` — when every answer is contained.
-/

namespace Triage

/-! ## Shorter narratives -/

/-- `endings` of `_compact_narrative`: the places right after the sentence endings. -/
def sentenceEnds (text : PyStr) : List ℕ :=
  (text.zipIdx.filter fun p => isSentenceEnding p.1).map fun p => p.2 + 1

/-- `_compact_narrative`. The place is looked up from the end when fewer than one sentence is
asked for. -/
def compactNarrative (value : PyStr) (maxChars maxSentences : ℤ) : Except PyError PyStr :=
  let text := value.strip
  let endings := sentenceEnds text
  if text.length ≤ maxChars ∧ endings.length ≤ maxSentences then return text
  else
    let usable : List ℕ := endings.filter fun index => decide ((index : ℤ) ≤ maxChars)
    if usable = [] then throw (.valueError
      (py "cannot safely compact narrative without a complete sentence boundary"))
    else match usable.pyGet? (min maxSentences usable.length - 1) with
      | some cutoff => return PyStr.strip (text.take cutoff)
      | none => throw (.custom (py "IndexError") (py "list index out of range"))

/-- A field with a shorter text, if it is a text. -/
def compactField (maxChars maxSentences : ℕ) (fields : Json.Fields) (field : String) :
    Except PyError Json.Fields :=
  match fields.get (py field) with
  | .str value => do
    return Dict.set fields (py field) (.str (← compactNarrative value maxChars maxSentences))
  | _ => return fields

/-- A finding with shorter details. -/
def compactFinding (maxChars maxSentences : ℕ) (finding : Json) : Except PyError Json :=
  match finding with
  | .obj fields => do
    return .obj (← ["detail_zh", "detail_en"].foldlM (compactField maxChars maxSentences) fields)
  | _ => throw .attributeError

/-- The loop over one group. What is not a list has no findings, only texts. -/
def compactGroup (result : Json.Fields) (limit : PyStr × ℕ × ℕ) : Except PyError Json.Fields :=
  match Dict.get? result limit.1 with
  | none => return result
  | some (.arr items) => do
    return Dict.set result limit.1 (.arr (← items.mapM (compactFinding limit.2.1 limit.2.2)))
  | some v => do
    match ← v.iter with
    | [] => return result
    | _ :: _ => throw .attributeError

/-- The summaries of a result are shortened. -/
def compactSummaries (result : Json.Fields) : Except PyError Json.Fields :=
  ["summary_zh", "summary_en"].foldlM (compactField 800 4) result

/-- The limits details are shortened to, by group. -/
def narrativeLimits : List (PyStr × ℕ × ℕ) :=
  [(py "key_finds", 600, 3), (py "secondary_finds", 320, 1)]

/-- `compact_log_triage_narrative`. -/
def compactLogTriageNarrative (result : Json.Fields) : Except PyError Json.Fields := do
  narrativeLimits.foldlM compactGroup (← compactSummaries result)

/-! ## The loop -/

/-- `HermesInvalidResponse`, which is no `ValueError`. -/
def hermesInvalidResponse (message : PyStr) : PyError :=
  .custom (py "HermesInvalidResponse") message

section Loop

variable (env : Env) (st : Statistics)
  /- what the validating library says about an output that violates the schema -/
  (schemaMessage : Json.Fields → PyStr)

/-- `validate_against_schema` with the schema of the skill. -/
def validateAgainstSchema (label : PyStr) (output : Json.Fields) : Except PyError Unit :=
  refuse (!outputSchema.accepts (fun _ _ => true) (.obj output))
    (label ++ py " failed schema validation: " ++ schemaMessage output)

/-- Both checks of a candidate. -/
def checkOutput (label : PyStr) (output : Json.Fields) : Except PyError Unit := do
  validateAgainstSchema schemaMessage label output
  validateLogTriageResult env label output

/-- An attempt at an answer: the output, or the exception and what it leaves of the answer. -/
def strictAttempt (answer : Json.Fields) : Except (Failure Json.Fields) Json.Fields :=
  match reconcileResult env st false answer with
  | .error f => .error f
  | .ok (candidate, left) =>
    match checkOutput env schemaMessage (py "Hermes output") candidate with
    | .error e => .error (e, left)
    | .ok () => .ok candidate

/-- The candidate of a fallback attempt. -/
def fallbackCandidate (left : Json.Fields) : Except PyError Json.Fields := do
  let (candidate, _) ← raised (reconcileResult env st true left)
  let candidate ← compactLogTriageNarrative candidate
  checkOutput env schemaMessage (py "Hermes fallback output") candidate
  return candidate

/-- The last attempt at what is left of an answer. -/
def fallbackAttempt (left : Json.Fields) : Except PyError Json.Fields :=
  match fallbackCandidate env st schemaMessage left with
  | .ok output => return output
  | .error e =>
    if isContained e then
      throw (hermesInvalidResponse (py "Hermes returned invalid structured output"))
    else throw e

variable (answer : ℕ → Except PyStr Json.Fields)

/-- The attempts from the one numbered `attempt` on, with so many after it. An answer is a JSON
object, or the message of `HermesInvalidResponse`. -/
def attempts (remaining attempt : ℕ) : Except PyError Json.Fields :=
  match answer attempt with
  | .error message => match remaining with
    | 0 => throw (hermesInvalidResponse message)
    | remaining + 1 => attempts remaining (attempt + 1)
  | .ok result => match strictAttempt env st schemaMessage result with
    | .ok output => return output
    | .error (e, left) =>
      if isValueError e then match remaining with
        | 0 => fallbackAttempt env st schemaMessage left
        | remaining + 1 => attempts remaining (attempt + 1)
      else throw e

/-- `max(1, int(settings.hermes_max_output_attempts))`. -/
def outputAttempts (hermesMaxOutputAttempts : ℤ) : ℕ := (max 1 hermesMaxOutputAttempts).toNat

/-- The loop of `_process_log_triage_message`. -/
def processLogTriageMessage (hermesMaxOutputAttempts : ℤ) : Except PyError Json.Fields :=
  attempts env st schemaMessage answer (outputAttempts hermesMaxOutputAttempts - 1) 0

end Loop

/-! ## What the checks raise -/

section Checks

variable {env : Env}

/-- The exception of a check that fails. -/
def IsRefusal (e : PyError) : Prop := ∃ message, e = outputValidationError message

lemma IsRefusal.isValueError {e : PyError} (h : IsRefusal e) : isValueError e = true := by
  obtain ⟨message, rfl⟩ := h
  rfl

lemma throw_raises {α : Type} (message : PyStr) :
    (throw (outputValidationError message) : Except PyError α).Raises IsRefusal :=
  .throw ⟨message, rfl⟩

lemma refuse_raises (bad : Bool) (message : PyStr) : (refuse bad message).Raises IsRefusal := by
  unfold refuse
  split
  · exact throw_raises message
  · exact .pure ()

lemma validateNarrativeCompletion_raises (value path : PyStr) :
    (validateNarrativeCompletion env value path).Raises IsRefusal := by
  unfold validateNarrativeCompletion
  exact (refuse_raises _ _).bind fun _ _ => (refuse_raises _ _).bind fun _ _ =>
    (refuse_raises _ _).bind fun _ _ => refuse_raises _ _

lemma validateSummary_raises (label : PyStr) (result : Json.Fields) (field : String) :
    (validateSummary env label result field).Raises IsRefusal := by
  unfold validateSummary
  dsimp only
  split
  · exact (refuse_raises _ _).bind fun _ _ => (refuse_raises _ _).bind fun _ _ =>
      (validateNarrativeCompletion_raises _ _).bind fun _ _ => refuse_raises _ _
  · exact throw_raises _

lemma validateId_raises (path : PyStr) (seen : Seen) (finding : Json.Fields) :
    (validateId path seen finding).Raises IsRefusal := by
  unfold validateId
  split
  · exact (refuse_raises _ _).bind fun _ _ => (refuse_raises _ _).bind fun _ _ => .pure _
  · exact throw_raises _

lemma validateText_raises (path : PyStr) (finding : Json.Fields) (field : String) :
    (validateText path finding field).Raises IsRefusal := by
  unfold validateText
  split
  · exact refuse_raises _ _
  · exact throw_raises _

lemma validatePatternIds_raises (path : PyStr) (seen : Seen) (finding : Json.Fields) :
    (validatePatternIds path seen finding).Raises IsRefusal := by
  unfold validatePatternIds
  split
  · refine (refuse_raises _ _).bind fun _ _ => (refuse_raises _ _).bind fun _ _ => ?_
    split
    · exact throw_raises _
    · exact .pure _
  · exact throw_raises _

lemma validateEvidence_raises (path : PyStr) (finding : Json.Fields) :
    (validateEvidence path finding).Raises IsRefusal := by
  unfold validateEvidence
  split
  · exact .pure _
  · exact (refuse_raises _ _).bind fun _ _ => refuse_raises _ _
  · exact throw_raises _

/-- Reading a count raises only a refusal. -/
lemma count_raises (v : Json) (message : PyStr) :
    (match v with
      | .null => pure none
      | v => match natural v with
        | some n => pure (some n)
        | none => throw (outputValidationError message) :
      Except PyError (Option ℕ)).Raises IsRefusal := by
  split
  · exact .pure _
  · split
    · exact .pure _
    · exact throw_raises _

lemma validateEntryCounts_raises (path : PyStr) (total : ℤ) (finding : Json.Fields) :
    (validateEntryCounts path total finding).Raises IsRefusal := by
  unfold validateEntryCounts
  exact (count_raises _ _).bind fun _ _ => (refuse_raises _ _).bind fun _ _ =>
    (count_raises _ _).bind fun _ _ => (refuse_raises _ _).bind fun _ _ => .pure _

/-- The percentage is no integer that is too large for a float. -/
def Bounded (finding : Json.Fields) : Prop :=
  ∀ i, finding.get (py "percentage") = .int i → i.natAbs ≤ 100

lemma validatePercentage_raises {path : PyStr} {count : ℕ} {total : ℤ} {percentage : Json}
    (h : ∀ i, percentage = .int i → i.natAbs ≤ 100) :
    (validatePercentage env path count total percentage).Raises IsRefusal := by
  have hfloat : (floatOf percentage).Raises IsRefusal := by
    unfold floatOf
    split
    · next i =>
      have hsmall : ¬ 2 ^ 1024 - 2 ^ 970 ≤ i.natAbs := by
        have hlarge : 100 < 2 ^ 1024 - 2 ^ 970 := by decide +kernel
        exact fun hge => absurd (hlarge.trans_le (hge.trans (h i rfl))) (lt_irrefl 100)
      rw [if_neg hsmall]
      exact .pure _
    · exact .pure _
    · exact .pure _
  unfold validatePercentage
  refine hfloat.bind fun f _ => ?_
  split
  · exact throw_raises _
  · exact (refuse_raises _ _).bind fun _ _ => refuse_raises _ _
  · exact throw_raises _

lemma validateShares_raises {path : PyStr} {total : ℤ} {physical : Option ℕ}
    {finding : Json.Fields} (h : Bounded finding) :
    (validateShares env path total physical finding).Raises IsRefusal := by
  unfold validateShares
  split
  · exact refuse_raises _ _
  · unfold validateCount
    split
    · exact throw_raises _
    · exact (refuse_raises _ _).bind fun _ _ => (refuse_raises _ _).bind fun _ _ =>
        validatePercentage_raises h

lemma validateFinding_raises {path : PyStr} {total : ℤ} {seen : Seen} {finding : Json}
    (h : ∀ fields, finding = .obj fields → Bounded fields) :
    (validateFinding env path total seen finding).Raises IsRefusal := by
  unfold validateFinding
  split
  · next fields =>
    exact (validateId_raises _ _ _).bind fun _ _ =>
      (Except.Raises.forM fun field _ => validateText_raises _ _ _).bind fun _ _ =>
      (validatePatternIds_raises _ _ _).bind fun _ _ => (validateEvidence_raises _ _).bind fun _ _ =>
      (validateEntryCounts_raises _ _ _).bind fun _ _ =>
      (validateShares_raises (h fields rfl)).bind fun _ _ => .pure _
  · exact throw_raises _

/-- Both groups are lists of findings with bounded percentages. -/
structure Readable (result : Json.Fields) : Prop where
  lists : ∀ name ∈ groupNames, ∃ items, result.get name = .arr items
  bounded : ∀ finding ∈ findings result, ∀ fields, finding = .obj fields → Bounded fields

lemma validateGroup_raises {label name : PyStr} {total : ℤ} {result : Json.Fields} {seen : Seen}
    (h : Readable result) (hname : name ∈ groupNames) :
    (validateGroup env label total result seen name).Raises IsRefusal := by
  unfold validateGroup
  split
  · next items hitems =>
    refine .foldlM (fun seen item hitem => validateFinding_raises (h.bounded _ ?_)) seen
    refine List.mem_flatMap.mpr ⟨name, hname, ?_⟩
    rw [groupItems, hitems]
    exact List.fst_mem_of_mem_zipIdx hitem
  · exact throw_raises _

lemma placedFindings_raises {result : Json.Fields} {name : PyStr} {p : PyError → Prop}
    (h : Readable result) (hname : name ∈ groupNames) : (placedFindings result name).Raises p := by
  obtain ⟨items, hitems⟩ := h.lists name hname
  rw [placedFindings_eq hitems]
  exact .ok _

lemma validateFindingDetailDensity_raises {label : PyStr} {result : Json.Fields}
    (h : Readable result) : (validateFindingDetailDensity env label result).Raises IsRefusal := by
  unfold validateFindingDetailDensity
  refine .forM fun limit hlimit => ?_
  have hname : limit.1 ∈ groupNames := by
    simp only [detailLimits, List.mem_cons, List.not_mem_nil, or_false] at hlimit
    rcases hlimit with rfl | rfl
    · exact List.mem_cons_self
    · exact List.mem_cons_of_mem _ List.mem_cons_self
  refine (placedFindings_raises h hname).bind fun items _ => .forM fun item _ => .forM fun field _ => ?_
  unfold validateDetail
  split
  · exact (refuse_raises _ _).bind fun _ _ => (refuse_raises _ _).bind fun _ _ =>
      validateNarrativeCompletion_raises _ _
  · exact .pure _

lemma validateRepetition_raises {label : PyStr} {result : Json.Fields} (h : Readable result) :
    (validateRepetition env label result).Raises IsRefusal := by
  unfold validateRepetition
  refine .forM fun suffix _ => ?_
  split
  · refine Except.Raises.bind (.foldlM (fun seen name hname => ?_) _) fun _ _ => .pure _
    refine (placedFindings_raises h hname).bind fun items _ => .foldlM (fun seen item _ => ?_) _
    unfold validateUnrepeated
    exact (refuse_raises _ _).bind fun _ _ => (refuse_raises _ _).bind fun _ _ => .pure _
  · exact .pure _

lemma validateCausationLanguage_raises {label : PyStr} {result : Json.Fields}
    (h : Readable result) : (validateCausationLanguage env label result).Raises IsRefusal := by
  unfold validateCausationLanguage
  rw [analysisText_eq h.lists]
  exact refuse_raises _ _

/-- The semantic checks of a result that can be read raise only `OutputValidationError`. -/
lemma validateLogTriageResult_raises {label : PyStr} {result : Json.Fields} (h : Readable result) :
    (validateLogTriageResult env label result).Raises IsRefusal := by
  unfold validateLogTriageResult
  split
  · exact throw_raises _
  · exact (Except.Raises.forM fun field _ => validateSummary_raises _ _ _).bind fun _ _ =>
      (Except.Raises.foldlM (fun seen name hname => validateGroup_raises h hname) _).bind fun _ _ =>
      (validateFindingDetailDensity_raises h).bind fun _ _ =>
      (validateRepetition_raises h).bind fun _ _ => validateCausationLanguage_raises h

/-- An accepted finding has a bounded percentage. -/
lemma bounded_of_accepts {detailLength : ℕ} {fields : Json.Fields}
    (h : (groupFindSchema detailLength).accepts (fun _ _ => true) (.obj fields) = true) :
    Bounded fields := by
  intro i hi
  have hget : Dict.get? fields (py "percentage") = some (.int i) := by
    unfold Json.Fields.get Json.Fields.getD at hi
    cases hget : Dict.get? fields (py "percentage") with
    | none =>
      rw [hget] at hi
      cases hi
    | some v =>
      rw [hget] at hi
      rw [← hi]
      rfl
  have hfind := Schema.accepts_all.mp h findSchema List.mem_cons_self
  have hall := Schema.accepts_all.mp hfind (.properties findProperties) (by simp)
  have hpercentage := Schema.accepts_property.mp (Schema.accepts_properties.mp hall
    (py "percentage", .all [.type [.number, .null], .minimum 0, .maximum 100])
    (by simp [findProperties])) (.int i) hget
  have hmin := Schema.accepts_all.mp hpercentage (.minimum 0) (by simp)
  have hmax := Schema.accepts_all.mp hpercentage (.maximum 100) (by simp)
  have hle : (0 : ℤ) ≤ i := by
    have h0 : (0 : ℚ) ≤ i := by simpa [Schema.accepts, Schema.numberLt] using hmin
    exact_mod_cast h0
  have hge : i ≤ 100 := by
    have h100 : (i : ℚ) ≤ 100 := by simpa [Schema.accepts, Schema.numberGt] using hmax
    exact_mod_cast h100
  omega

/-- What the schema accepts can be read. -/
lemma readable_of_accepts {output : Json.Fields}
    (h : outputSchema.accepts (fun _ _ => true) (.obj output) = true) : Readable output where
  lists := by
    intro name hname
    obtain ⟨items, -, hget, -⟩ := exists_outputGroup h hname
    exact ⟨items, by rw [Json.Fields.get, Json.Fields.getD, hget]; rfl⟩
  bounded := by
    rintro finding hfinding fields rfl
    obtain ⟨name, hname, hmem⟩ := List.mem_flatMap.mp hfinding
    obtain ⟨items, detailLength, hget, hitems⟩ := exists_outputGroup h hname
    have hgroup : groupItems output name = items := by
      rw [groupItems, Json.Fields.get, Json.Fields.getD, hget]
      rfl
    exact bounded_of_accepts (hitems _ (hgroup ▸ hmem))

/-- **The checks raise only `OutputValidationError`.** -/
theorem raises_checkOutput (schemaMessage : Json.Fields → PyStr) (label : PyStr)
    (output : Json.Fields) :
    (checkOutput env schemaMessage label output).Raises IsRefusal := by
  refine (refuse_raises _ _).bind fun _ h => validateLogTriageResult_raises ?_
  exact readable_of_accepts (by simpa using refuse_eq_ok.mp h)

/-- An output that passes both checks. -/
structure Validated (env : Env) (output : Json.Fields) : Prop where
  schema : outputSchema.accepts (fun _ _ => true) (.obj output) = true
  accepted : ∃ total, Accepted env total output

lemma checkOutput_eq_ok {schemaMessage : Json.Fields → PyStr} {label : PyStr}
    {output : Json.Fields} :
    checkOutput env schemaMessage label output = .ok () ↔ Validated env output := by
  unfold checkOutput validateAgainstSchema
  rw [Except.bind_eq_ok]
  simp only [refuse_eq_ok, Bool.not_eq_false', exists_const, validateLogTriageResult_eq_ok]
  exact ⟨fun h => ⟨h.1, h.2⟩, fun h => ⟨h.schema, h.accepted⟩⟩

end Checks

/-! ## What shortening raises -/

section Compact

/-- The findings shortening goes through, each with the limits of its group. -/
def metWithLimits (result : Json.Fields) : List (Json × ℕ × ℕ) :=
  narrativeLimits.flatMap fun limit =>
    (groupElements (result.getD limit.1 (.arr []))).map fun x => (x, limit.2)

/-- A turn of the loop over the findings; it carries nothing on. -/
def compactTurn (_ : Unit) (item : Json × ℕ × ℕ) : Except PyError Unit :=
  (compactFinding item.2.1 item.2.2 item.1).map fun _ => ()

/-- **Every finding shortening reaches is an object.** -/
def CompactShaped (result : Json.Fields) : Prop :=
  ∀ summarized, compactSummaries result = .ok summarized → ∀ s x,
    Except.Reaches compactTurn () (metWithLimits result) s x → x.1.isObject = true

lemma compactField_raises (maxChars maxSentences : ℕ) (fields : Json.Fields) (field : String) :
    (compactField maxChars maxSentences fields field).Raises fun e => isValueError e = true := by
  unfold compactField
  split
  · next value =>
    refine Except.Raises.bind ?_ fun _ _ => .pure _
    unfold compactNarrative
    dsimp only
    split
    · exact .pure _
    · split
      · exact .throw rfl
      · next husable =>
        -- a limit that is not negative finds a place
        obtain ⟨cutoff, hcutoff⟩ := List.exists_pyGet?_min husable maxSentences
        rw [hcutoff]
        exact .pure _
  · exact .pure _

lemma compactTurn_escapes_iff {s : Unit} {item : Json × ℕ × ℕ} :
    (∃ e, compactTurn s item = .error e ∧ isContained e = false) ↔ item.1.isObject = false := by
  obtain ⟨finding, maxChars, maxSentences⟩ := item
  cases finding with
  | null | bool | int | float | str | arr =>
    exact ⟨fun _ => rfl, fun _ => ⟨.attributeError, rfl, rfl⟩⟩
  | obj fields =>
    refine ⟨?_, fun h => by cases h⟩
    rintro ⟨e, h, he⟩
    have hraises : (compactTurn s (.obj fields, maxChars, maxSentences)).Raises
        fun e => isValueError e = true := by
      intro e h
      unfold compactTurn compactFinding at h
      dsimp only at h
      cases hfields : ["detail_zh", "detail_en"].foldlM (compactField maxChars maxSentences)
          fields with
      | error e' =>
        rw [hfields] at h
        cases h
        exact Except.Raises.foldlM (fun b x _ => compactField_raises _ _ b x) fields _ hfields
      | ok out =>
        rw [hfields] at h
        cases h
    rw [isContained_of_isValueError (hraises e h)] at he
    cases he

lemma mapM_compactFinding (limit : ℕ × ℕ) (items : List Json) :
    (items.mapM (compactFinding limit.1 limit.2)).map (fun _ => ()) =
      (items.map fun x => (x, limit)).foldlM compactTurn () := by
  induction items with
  | nil => rfl
  | cons x items ih =>
    rw [List.mapM_cons, List.map_cons, List.foldlM_cons, compactTurn]
    cases compactFinding limit.1 limit.2 x with
    | error e => rfl
    | ok x' =>
      rw [Except.ok_bind]
      show _ = (items.map fun x => (x, limit)).foldlM compactTurn ()
      rw [← ih]
      cases items.mapM (compactFinding limit.1 limit.2) with
      | error e => rfl
      | ok rest => rfl

/-- Shortening one group goes through its elements. -/
lemma compactGroup_turns (result : Json.Fields) (limit : PyStr × ℕ × ℕ) {elements : List Json}
    (h : (result.getD limit.1 (.arr [])).iter = .ok elements) :
    (compactGroup result limit).map (fun _ => ()) =
      ((groupElements (result.getD limit.1 (.arr []))).map fun x => (x, limit.2)).foldlM
        compactTurn () := by
  unfold compactGroup
  split
  · next hnone =>
    have hget : result.getD limit.1 (.arr []) = .arr [] := by rw [Json.Fields.getD, hnone]; rfl
    rw [hget]
    rfl
  · next items hitems =>
    have hget : result.getD limit.1 (.arr []) = .arr items := by
      rw [Json.Fields.getD, hitems]
      rfl
    rw [hget]
    show _ = (items.map fun x => (x, limit.2)).foldlM compactTurn ()
    rw [← mapM_compactFinding]
    cases items.mapM (compactFinding limit.2.1 limit.2.2) with
    | error e => rfl
    | ok rest => rfl
  · next v hne hv =>
    have hget : result.getD limit.1 (.arr []) = v := by rw [Json.Fields.getD, hv]; rfl
    rw [hget] at h ⊢
    rw [groupElements, h, Except.ok_bind]
    have htexts := texts_of_iter hne h
    cases elements with
    | nil => rfl
    | cons x rest =>
      -- the first of the texts has no `get`
      obtain ⟨text, rfl⟩ := htexts x List.mem_cons_self
      rfl

lemma get?_compactField {maxChars maxSentences : ℕ} {fields out : Json.Fields} {field : String}
    (h : compactField maxChars maxSentences fields field = .ok out) {other : PyStr}
    (hother : other ≠ py field) : Dict.get? out other = Dict.get? fields other := by
  unfold compactField at h
  split at h
  · obtain ⟨text, -, h⟩ := Except.bind_eq_ok.mp h
    rw [Except.pure_eq_ok] at h
    rw [← h, Dict.get?_set_of_ne _ _ hother]
  · rw [Except.pure_eq_ok] at h
    rw [h]

/-- Shortening one group leaves the other fields alone. -/
lemma get?_compactGroup {result out : Json.Fields} {limit : PyStr × ℕ × ℕ}
    (h : compactGroup result limit = .ok out) {other : PyStr} (hother : other ≠ limit.1) :
    Dict.get? out other = Dict.get? result other := by
  unfold compactGroup at h
  split at h
  · cases h
    rfl
  · obtain ⟨items, -, h⟩ := Except.bind_eq_ok.mp h
    rw [Except.pure_eq_ok] at h
    rw [← h, Dict.get?_set_of_ne _ _ hother]
  · obtain ⟨items, -, h⟩ := Except.bind_eq_ok.mp h
    split at h
    · cases h
      rfl
    · exact absurd h Except.throw_ne_ok

/-- The summaries are not the groups. -/
lemma get?_compactSummaries {result out : Json.Fields} (h : compactSummaries result = .ok out)
    {name : PyStr} (hname : name ∈ groupNames) : Dict.get? out name = Dict.get? result name := by
  have hne : ∀ field ∈ ["summary_zh", "summary_en"], name ≠ py field := by
    simp only [groupNames, List.mem_cons, List.not_mem_nil, or_false] at hname
    rcases hname with rfl | rfl
    · decide
    · decide
  exact Except.foldlM_invariant (P := fun out => Dict.get? out name = Dict.get? result name)
    (fun b field c hfield hb hc => (get?_compactField hc (hne field hfield)).trans hb) rfl h

/-- Shortening goes through the findings that are met. -/
lemma compactLogTriageNarrative_turns {result : Json.Fields} (h : Iterable result) :
    (compactLogTriageNarrative result).map (fun _ => ()) =
      compactSummaries result >>= fun _ => (metWithLimits result).foldlM compactTurn () := by
  unfold compactLogTriageNarrative
  cases hsummaries : compactSummaries result with
  | error e => rfl
  | ok out =>
    have hkeep : ∀ name ∈ groupNames, Dict.get? out name = Dict.get? result name :=
      fun name => get?_compactSummaries hsummaries
    obtain ⟨key, hkey⟩ := h (py "key_finds") List.mem_cons_self
    obtain ⟨secondary, hsecondary⟩ :=
      h (py "secondary_finds") (List.mem_cons_of_mem _ List.mem_cons_self)
    have hsame : ∀ name ∈ groupNames, out.getD name (.arr []) = result.getD name (.arr []) :=
      fun name hname => by rw [Json.Fields.getD, Json.Fields.getD, hkeep name hname]
    have hsame₁ := hsame (py "key_finds") List.mem_cons_self
    have hsame₂ := hsame (py "secondary_finds") (List.mem_cons_of_mem _ List.mem_cons_self)
    simp only [Except.ok_bind, metWithLimits, narrativeLimits, List.flatMap_cons, List.flatMap_nil,
      List.append_nil, List.foldlM_append, List.foldlM_cons, List.foldlM_nil]
    have hfirst := compactGroup_turns out (py "key_finds", 600, 3) (hsame₁ ▸ hkey)
    rw [← hsame₁, ← hfirst]
    cases hout : compactGroup out (py "key_finds", 600, 3) with
    | error e => rfl
    | ok out₁ =>
      have hsame₃ : out₁.getD (py "secondary_finds") (.arr []) =
          result.getD (py "secondary_finds") (.arr []) := by
        rw [Json.Fields.getD, get?_compactGroup hout (by simp), ← Json.Fields.getD, hsame₂]
      have hsecond := compactGroup_turns out₁ (py "secondary_finds", 320, 1) (hsame₃ ▸ hsecondary)
      rw [← hsame₃]
      show _ = ((groupElements (out₁.getD (py "secondary_finds") (.arr []))).map
        fun x => (x, 320, 1)).foldlM compactTurn ()
      rw [← hsecond]
      show ((compactGroup out₁ (py "secondary_finds", 320, 1) >>= pure).map fun _ => ()) = _
      rw [bind_pure]

/-- **What shortening raises.** -/
lemma raises_compact_iff {result : Json.Fields} (h : Iterable result) :
    (compactLogTriageNarrative result).Raises (fun e => isContained e = true) ↔
      CompactShaped result := by
  have hsummaries : (compactSummaries result).Raises fun e => isContained e = true :=
    (Except.Raises.foldlM (fun b x _ => compactField_raises 800 4 b x) result).mono
      fun e => isContained_of_isValueError
  have hsame : (compactLogTriageNarrative result).Raises (fun e => isContained e = true) ↔
      ((compactLogTriageNarrative result).map fun _ => ()).Raises
        fun e => isContained e = true := by
    cases compactLogTriageNarrative result with
    | error e => simp [Except.Raises, Except.map]
    | ok out => simp [Except.Raises, Except.map]
  have hturns : ((metWithLimits result).foldlM compactTurn ()).Raises
      (fun e => isContained e = true) ↔ ∀ s x, Except.Reaches compactTurn () (metWithLimits result)
        s x → ¬ ∃ e, compactTurn s x = .error e ∧ isContained e = false := raises_foldlM_iff
  simp only [compactTurn_escapes_iff, Bool.not_eq_false] at hturns
  rw [hsame, compactLogTriageNarrative_turns h]
  constructor
  · intro hall out hout
    rw [hout, Except.ok_bind] at hall
    exact hturns.mp hall
  · intro hshaped
    exact hsummaries.bind fun out hout => hturns.mpr (hshaped out hout)

end Compact

/-! ## The candidate of an attempt -/

section Candidate

variable {env : Env} {st : Statistics} {fallback : Bool}

/-- Each group is a list afterwards, or has not changed. -/
def KeepsKind (result out : Json.Fields) : Prop :=
  ∀ name ∈ groupNames, IsList out name ∨ Dict.get? out name = Dict.get? result name

lemma KeepsKind.iterable {result out : Json.Fields} (h : KeepsKind result out)
    (hresult : Iterable result) : Iterable out := by
  intro name hname
  rcases h name hname with ⟨items, hitems⟩ | hsame
  · exact ⟨items, by rw [hitems]; rfl⟩
  · rw [Json.Fields.getD, hsame]
    exact hresult name hname

lemma KeepsKind.trans {result between out : Json.Fields} (h : KeepsKind result between)
    (h' : KeepsKind between out) : KeepsKind result out := by
  intro name hname
  rcases h' name hname with hlist | hsame
  · exact .inl hlist
  · exact (h name hname).imp (isList_congr hsame).mpr hsame.trans

lemma reconcileGroup_keepsKind {result out : Json.Fields} {claimed after : List ℕ} {name : PyStr}
    (h : reconcileGroup env st result claimed name = .ok (out, after)) : KeepsKind result out := by
  intro other _
  by_cases hother : other = name
  · subst hother
    unfold reconcileGroup at h
    split at h
    · cases h
      exact .inr rfl
    · split at h
      · cases h
      · next items _ _ =>
        cases h
        exact .inl ⟨items, by simp [Json.Fields.getD]⟩
    · split at h
      · cases h
      · cases h
        exact .inr rfl
  · exact .inr ((reconcileGroup_eq_ok h).2 other hother)

lemma appendUnclaimed_keepsKind {result out : Json.Fields} {claimed : List ℕ}
    (h : appendUnclaimed env st result claimed = .ok out) : KeepsKind result out := by
  intro name _
  unfold appendUnclaimed at h
  split at h
  · cases h
  · cases h
    exact .inr rfl
  · next appended _ _ =>
    split at h
    · next items _ =>
      cases h
      by_cases hname : name = py "secondary_finds"
      · subst hname
        exact .inl ⟨items ++ appended.map .obj, by simp [Json.Fields.getD]⟩
      · exact .inr (Dict.get?_set_of_ne _ _ hname)
    · cases h

/-- A loop that succeeds has gone through groups that can be iterated. -/
lemma iterable_of_foldlM {result : Json.Fields} {claimed : List ℕ}
    (h : (met result).foldlM (claimTurn env st) [] = .ok claimed) : Iterable result := by
  intro name hname
  cases hiter : (result.getD name (.arr [])).iter with
  | ok items => exact ⟨items, rfl⟩
  | error e =>
    obtain ⟨rfl, hev⟩ := hasEvidence_of_iter hiter
    have hmem : result.getD name (.arr []) ∈ met result := by
      refine List.mem_flatMap.mpr ⟨name, hname, ?_⟩
      rw [groupElements, hiter]
      exact List.mem_singleton_self _
    -- the group stands for itself, and its turn raises
    obtain ⟨before, after, hmet⟩ := List.append_of_mem hmem
    rw [hmet, List.foldlM_append, Except.bind_eq_ok] at h
    obtain ⟨between, -, h⟩ := h
    have hturn : claimTurn env st between (result.getD name (.arr [])) = .error .typeError :=
      (claimTurn_eq_error_iff rfl).mpr (.inl hev)
    rw [List.foldlM_cons, hturn] at h
    cases h

/-- Both loops over the groups go through the findings that are met. -/
lemma foldlM_met {result result₁ result₂ : Json.Fields} {between claimed : List ℕ}
    (h₁ : reconcileGroup env st result [] (py "key_finds") = .ok (result₁, between))
    (h₂ : reconcileGroup env st result₁ between (py "secondary_finds") = .ok (result₂, claimed)) :
    (met result).foldlM (claimTurn env st) [] = .ok claimed := by
  have hkey := reconcileGroup_claimed env st result [] (py "key_finds")
  have hsecondary := reconcileGroup_claimed env st result₁ between
    (py "secondary_finds")
  rw [h₁] at hkey
  rw [h₂, Json.Fields.getD, (reconcileGroup_eq_ok h₁).2 (py "secondary_finds") (by simp),
    ← Json.Fields.getD] at hsecondary
  rw [met_eq, List.foldlM_append, ← hkey]
  exact hsecondary.symm

lemma reconcileEntryGrouped_iterable {result out : Json.Fields}
    (h : reconcileEntryGrouped env st result = .ok out) : Iterable out := by
  obtain ⟨⟨result₁, between⟩, h₁, h⟩ := Except.bind_eq_ok.mp h
  obtain ⟨⟨result₂, claimed⟩, h₂, h⟩ := Except.bind_eq_ok.mp h
  obtain ⟨result₃, h₃, h⟩ := Except.bind_eq_ok.mp h
  rw [Except.pure_eq_ok] at h
  have hkind : KeepsKind result out := by
    refine ((reconcileGroup_keepsKind h₁).trans (reconcileGroup_keepsKind h₂)).trans
      ((appendUnclaimed_keepsKind h₃).trans fun name hname => .inr ?_)
    rw [← h]
    refine Dict.get?_set_of_ne _ _ ?_
    rintro rfl
    revert hname
    decide
  exact hkind.iterable (iterable_of_foldlM (foldlM_met h₁ h₂))

/-- The groups of a reconciled result can be iterated. -/
lemma reconcileResult_iterable {result out left : Json.Fields}
    (h : reconcileResult env st fallback result = .ok (out, left)) : Iterable out := by
  unfold reconcileResult at h
  split at h
  · cases h
  · obtain ⟨out', hout, h⟩ := Except.bind_eq_ok.mp h
    rw [Except.pure_eq_ok] at h
    cases h
    exact reconcileEntryGrouped_iterable hout
  · obtain ⟨out₁, -, h⟩ := Except.bind_eq_ok.mp h
    obtain ⟨out₂, -, h⟩ := Except.bind_eq_ok.mp h
    dsimp only at h
    split at h
    · rw [Except.pure_eq_ok] at h
      cases h
      intro name hname
      simp only [groupNames, List.mem_cons, List.not_mem_nil, or_false] at hname
      rcases hname with rfl | rfl
      · exact ⟨_, by simp [Doc.read, Json.Fields.getD, Dict.get?_set, Json.iter]; rfl⟩
      · exact ⟨_, by simp [Doc.read, Json.Fields.getD, Json.iter]; rfl⟩
    · exact absurd h Except.throw_ne_ok

end Candidate

/-! ## The attempts -/

section Attempts

variable {env : Env} {st : Statistics} {schemaMessage : Json.Fields → PyStr}

/-- What is left of an answer that a strict attempt rejects. -/
def Rejects (env : Env) (st : Statistics) (schemaMessage : Json.Fields → PyStr)
    (answer left : Json.Fields) : Prop :=
  ∃ e, strictAttempt env st schemaMessage answer = .error (e, left) ∧ isValueError e = true

variable (schemaMessage) in
/-- What a strict attempt raises apart from `ValueError`s is what `reconcile_result` raises. -/
lemma strictAttempt_eq_error_iff {answer : Json.Fields} {e : PyError}
    (he : isValueError e = false) :
    (∃ left, strictAttempt env st schemaMessage answer = .error (e, left)) ↔
      raised (reconcileResult env st false answer) = .error e := by
  rw [raised_eq_error]
  refine exists_congr fun left => ?_
  unfold strictAttempt
  split
  · next f hf =>
    rw [hf, Except.error.injEq, Except.error.injEq]
  · next candidate left' hcandidate =>
    rw [hcandidate]
    split
    · next e' hcheck =>
      have hrefusal := (raises_checkOutput schemaMessage _ _ e' hcheck).isValueError
      constructor
      · rintro ⟨⟩
        rw [he] at hrefusal
        cases hrefusal
      · rintro ⟨⟩
    · exact ⟨by rintro ⟨⟩, by rintro ⟨⟩⟩

/-- An output of a strict attempt is validated. -/
lemma validated_of_strictAttempt {answer output : Json.Fields}
    (h : strictAttempt env st schemaMessage answer = .ok output) : Validated env output := by
  unfold strictAttempt at h
  split at h
  · cases h
  · split at h
    · cases h
    · next hcheck =>
      cases h
      exact checkOutput_eq_ok.mp hcheck

/-- The loop ends with a validated output or with `HermesInvalidResponse`. -/
def Contained (env : Env) (run : Except PyError Json.Fields) : Prop :=
  match run with
  | .ok output => Validated env output
  | .error e => ∃ message, e = hermesInvalidResponse message

/-- What a fallback attempt does not contain is an `AttributeError`. -/
def isNamed (e : PyError) : Bool := isContained e || decide (e = .attributeError)

lemma isNamed_of_isContained {e : PyError} (h : isContained e = true) : isNamed e = true := by
  simp [isNamed, h]

lemma claimTurn_raises (claimed : List ℕ) (finding : Json) :
    (claimTurn env st claimed finding).Raises fun e => isNamed e = true := by
  intro e h
  cases he : isValueError e with
  | true => exact isNamed_of_isContained (isContained_of_isValueError he)
  | false =>
    rcases (claimTurn_eq_error_iff he).mp h with hev | ⟨-, -, rfl⟩
    · rw [eq_typeError_of_hasEvidence hev]
      rfl
    · rfl

lemma assignTurn_raises (fallback : Bool) (s : Assigned) (finding : Json) :
    (assignTurn env st fallback s finding).Raises fun e => isNamed e = true := by
  intro e h
  cases he : isContained e with
  | true => exact isNamed_of_isContained he
  | false =>
    have hobject := assignTurn_escapes_iff.mp ⟨e, h, he⟩
    cases finding with
    | obj fields => cases hobject
    | null | bool | int | float | str | arr =>
      cases h
      rfl

/-- Reconciliation raises nothing else. -/
lemma reconcileResult_raises (fallback : Bool) (result : Json.Fields) :
    (raised (reconcileResult env st fallback result)).Raises fun e => isNamed e = true := by
  refine raises_reconcileResult_cases.mpr ⟨fun e he => ?_, fun _ e he => ?_, fun hev e he => ?_⟩
  · obtain ⟨-, x, -, -, -, hx⟩ := anyEvidence_eq_error_iff.mp he
    rw [eq_typeError_of_hasEvidence hx]
    rfl
  · cases hvalue : isValueError e with
    | true => exact isNamed_of_isContained (isContained_of_isValueError hvalue)
    | false =>
      rcases (reconcileEntryGrouped_eq_error_iff hvalue).mp he with he | ⟨-, -, -, -, rfl⟩
      · exact Except.Raises.foldlM (fun s x _ => claimTurn_raises s x) [] e he
      · rfl
  · have hiterable : Iterable result :=
      iterable_of_iterGroups ((iterGroups_eq result).trans hev)
    have hloop : ((met result).foldlM (assignTurn env st fallback) ⟨[], false⟩).Raises
        fun e => isNamed e = true := .foldlM (fun s x _ => assignTurn_raises fallback s x) _
    rcases reconcilePatterns_eq_error_iff.mp he with he | ⟨-, -, -, rfl⟩
    · refine hloop e ?_
      rw [← assignGroups_assigned hiterable]
      cases hout : assignGroups env st fallback result with
      | error f =>
        rw [hout, raised_eq_error] at he
        obtain ⟨left, hf⟩ := he
        cases hf
        rfl
      | ok out =>
        rw [hout] at he
        cases he
    · rfl

lemma raises_fallbackCandidate_iff {left : Json.Fields} :
    (fallbackCandidate env st schemaMessage left).Raises (fun e => isContained e = true) ↔
      FallbackShaped env st left ∧ ∀ candidate left',
        reconcileResult env st true left = .ok (candidate, left') → CompactShaped candidate := by
  have hcheck : ∀ label output, (checkOutput env schemaMessage label output).Raises
      fun e => isContained e = true := fun label output =>
    (raises_checkOutput schemaMessage label output).mono fun e he =>
      isContained_of_isValueError he.isValueError
  rw [← raises_fallback_iff]
  unfold fallbackCandidate
  cases hout : reconcileResult env st true left with
  | error f => simp [raised, Except.mapError, Except.Raises, bind, Except.bind]
  | ok out =>
    obtain ⟨candidate, left'⟩ := out
    have hcompact := raises_compact_iff (reconcileResult_iterable hout)
    have hok : (raised (.ok (candidate, left') : Except (Failure Json.Fields) _)).Raises
        fun e => isContained e = true := .ok (candidate, left')
    have hall : (∀ c l, (Except.ok (candidate, left') : Except (Failure Json.Fields) _) =
        .ok (c, l) → CompactShaped c) ↔ CompactShaped candidate := by
      simp
    rw [hall, ← hcompact, and_iff_right hok]
    show (compactLogTriageNarrative candidate >>= fun c =>
      checkOutput env schemaMessage (py "Hermes fallback output") c >>= fun _ => pure c).Raises _ ↔ _
    constructor
    · intro h e he
      exact h e (Except.bind_eq_error.mpr (.inl he))
    · exact fun h => h.bind fun c _ => (hcheck _ c).bind fun _ _ => .pure c

/-- A fallback attempt raises nothing else. -/
lemma fallbackCandidate_raises (left : Json.Fields) :
    (fallbackCandidate env st schemaMessage left).Raises fun e => isNamed e = true := by
  refine (reconcileResult_raises true left).bind fun out hout => ?_
  obtain ⟨candidate, left'⟩ := out
  refine Except.Raises.bind ?_ fun c _ => Except.Raises.bind ?_ fun _ _ => .pure c
  · have hturns := compactLogTriageNarrative_turns (reconcileResult_iterable (raised_eq_ok.mp hout))
    have hraises : ((compactLogTriageNarrative candidate).map fun _ => ()).Raises
        fun e => isNamed e = true := by
      rw [hturns]
      refine Except.Raises.bind ?_ fun _ _ => .foldlM (fun s x _ e he => ?_) ()
      · exact (Except.Raises.foldlM (fun b x _ => compactField_raises 800 4 b x) candidate).mono
          fun e he => isNamed_of_isContained (isContained_of_isValueError he)
      · cases hcontained : isContained e with
        | true => exact isNamed_of_isContained hcontained
        | false =>
          have hobject := compactTurn_escapes_iff.mp ⟨e, he, hcontained⟩
          obtain ⟨finding, limits⟩ := x
          cases finding with
          | obj fields => cases hobject
          | null | bool | int | float | str | arr =>
            cases he
            rfl
    intro e he
    exact hraises e (by rw [he]; rfl)
  · exact (raises_checkOutput schemaMessage _ c).mono fun e he =>
      isNamed_of_isContained (isContained_of_isValueError he.isValueError)

/-- **Every finding a fallback attempt reaches can be read**, and every finding of its candidate
that is shortened is an object. -/
structure FallbackReadable (env : Env) (st : Statistics) (left : Json.Fields) : Prop where
  shaped : FallbackShaped env st left
  compact : ∀ candidate left', reconcileResult env st true left = .ok (candidate, left') →
    CompactShaped candidate

/-- When a fallback attempt is contained. -/
lemma fallbackAttempt_contained_iff {left : Json.Fields} :
    Contained env (fallbackAttempt env st schemaMessage left) ↔ FallbackReadable env st left := by
  have hreadable : FallbackReadable env st left ↔
      (fallbackCandidate env st schemaMessage left).Raises fun e => isContained e = true := by
    rw [raises_fallbackCandidate_iff]
    exact ⟨fun h => ⟨h.shaped, h.compact⟩, fun h => ⟨h.1, h.2⟩⟩
  rw [hreadable]
  unfold fallbackAttempt
  cases hcandidate : fallbackCandidate env st schemaMessage left with
  | ok output =>
    refine iff_of_true ?_ (.ok output)
    obtain ⟨out, -, h⟩ := Except.bind_eq_ok.mp hcandidate
    obtain ⟨c, -, h⟩ := Except.bind_eq_ok.mp h
    obtain ⟨⟨⟩, hcheck, h⟩ := Except.bind_eq_ok.mp h
    rw [Except.pure_eq_ok] at h
    exact h ▸ checkOutput_eq_ok.mp hcheck
  | error e =>
    dsimp only
    cases he : isContained e with
    | true =>
      refine iff_of_true ⟨_, rfl⟩ fun e' h => ?_
      cases h
      exact he
    | false =>
      refine iff_of_false ?_ fun h => ?_
      · rintro ⟨message, rfl⟩
        have hnamed := fallbackCandidate_raises left _ hcandidate
        cases hnamed
      · have htrue : isContained e = true := h e rfl
        rw [he] at htrue
        cases htrue

/-- The attempt before the answer is asked for has failed: there was no answer, or it was rejected. -/
def Rejected (env : Env) (st : Statistics) (schemaMessage : Json.Fields → PyStr)
    (answer : Except PyStr Json.Fields) : Prop :=
  ∀ result, answer = .ok result → ∃ left, Rejects env st schemaMessage result left

/-- The attempts before the one numbered `attempt` have failed. -/
def Reached (env : Env) (st : Statistics) (schemaMessage : Json.Fields → PyStr)
    (answer : ℕ → Except PyStr Json.Fields) (attempt : ℕ) : Prop :=
  ∀ earlier < attempt, Rejected env st schemaMessage (answer earlier)

/-- **Every finding the attempts at an answer reach can be read**; the last answer gets a second
chance. -/
structure AnswerReadable (env : Env) (st : Statistics) (schemaMessage : Json.Fields → PyStr)
    (isLast : Prop) (answer : Json.Fields) : Prop where
  strict : WellShaped env st answer
  fallback : isLast → ∀ left, Rejects env st schemaMessage answer left →
    FallbackReadable env st left

variable (schemaMessage) in
/-- An answer is well shaped when a strict attempt at it raises only `ValueError`s. -/
lemma wellShaped_iff {answer : Json.Fields} : WellShaped env st answer ↔
    ∀ e left, strictAttempt env st schemaMessage answer = .error (e, left) →
      isValueError e = true := by
  rw [← raises_strict_iff]
  constructor
  · intro h e left hattempt
    cases he : isValueError e with
    | true => rfl
    | false =>
      have htrue : isValueError e = true := h e ((strictAttempt_eq_error_iff schemaMessage he).mp ⟨left, hattempt⟩)
      rw [he] at htrue
      cases htrue
  · intro h e hraised
    cases he : isValueError e with
    | true => rfl
    | false =>
      obtain ⟨left, hattempt⟩ := (strictAttempt_eq_error_iff schemaMessage he).mpr hraised
      rw [h e left hattempt] at he
      cases he

/-- An attempt that raises another exception is not contained. -/
lemma not_contained_of_strictAttempt {answer left : Json.Fields} {e : PyError}
    (h : strictAttempt env st schemaMessage answer = .error (e, left))
    (he : isValueError e = false) : ¬ Contained env (.error e) := by
  rintro ⟨message, rfl⟩
  have hraised := (strictAttempt_eq_error_iff schemaMessage he).mp ⟨left, h⟩
  have hnamed : isNamed _ = true := reconcileResult_raises false answer _ hraised
  cases hnamed

section Unfold

variable {answer : ℕ → Except PyStr Json.Fields} {remaining attempt : ℕ} {result : Json.Fields}

lemma attempts_of_ok {output : Json.Fields} (h : answer attempt = .ok result)
    (hattempt : strictAttempt env st schemaMessage result = .ok output) :
    attempts env st schemaMessage answer remaining attempt = .ok output := by
  unfold attempts
  simp only [h, hattempt]
  rfl

lemma attempts_of_break {e : PyError} {left : Json.Fields} (h : answer attempt = .ok result)
    (hattempt : strictAttempt env st schemaMessage result = .error (e, left))
    (he : isValueError e = false) :
    attempts env st schemaMessage answer remaining attempt = .error e := by
  unfold attempts
  simp only [h, hattempt, he]
  rfl

/-- The last answer gets a second chance. -/
lemma attempts_zero_of_rejects {left : Json.Fields} (h : answer attempt = .ok result)
    (hrejects : Rejects env st schemaMessage result left) :
    attempts env st schemaMessage answer 0 attempt = fallbackAttempt env st schemaMessage left := by
  obtain ⟨e, hattempt, he⟩ := hrejects
  unfold attempts
  simp only [h, hattempt, he, if_true]

/-- After an attempt that fails the next answer is asked for. -/
lemma attempts_succ_of_rejected (h : Rejected env st schemaMessage (answer attempt)) :
    attempts env st schemaMessage answer (remaining + 1) attempt =
      attempts env st schemaMessage answer remaining (attempt + 1) := by
  rw [attempts]
  cases hanswer : answer attempt with
  | error message => rfl
  | ok result =>
    obtain ⟨left, e, hattempt, he⟩ := h result hanswer
    simp only [hattempt, he, if_true]

end Unfold

/-- When the attempts from one on are contained. -/
lemma attempts_contained_iff {answer : ℕ → Except PyStr Json.Fields} {remaining attempt : ℕ} :
    Contained env (attempts env st schemaMessage answer remaining attempt) ↔
      ∀ k ≤ remaining, (∀ i < k, Rejected env st schemaMessage (answer (attempt + i))) →
        ∀ result, answer (attempt + k) = .ok result →
          AnswerReadable env st schemaMessage (k = remaining) result := by
  -- an answer that is not rejected decides how the attempts end, whether it is the last or not
  have hdecided : ∀ (remaining attempt : ℕ) (result : Json.Fields), answer attempt = .ok result →
      (¬ ∃ left, Rejects env st schemaMessage result left) →
      (Contained env (attempts env st schemaMessage answer remaining attempt) ↔
        WellShaped env st result) := by
    intro remaining attempt result hanswer hnot
    rw [wellShaped_iff schemaMessage]
    cases hattempt : strictAttempt env st schemaMessage result with
    | ok output =>
      rw [attempts_of_ok hanswer hattempt]
      refine iff_of_true (validated_of_strictAttempt hattempt) ?_
      rintro e left ⟨⟩
    | error f =>
      obtain ⟨e, left⟩ := f
      have he : isValueError e = false := by
        by_contra hvalue
        exact hnot ⟨left, e, hattempt, Bool.eq_true_of_not_eq_false hvalue⟩
      rw [attempts_of_break hanswer hattempt he]
      refine iff_of_false (not_contained_of_strictAttempt hattempt he) fun h => ?_
      rw [h e left rfl] at he
      cases he
  have hshaped : ∀ {result left : Json.Fields}, Rejects env st schemaMessage result left →
      WellShaped env st result := by
    rintro result left ⟨e, hattempt, he⟩
    refine (wellShaped_iff schemaMessage).mpr fun e' left' h => ?_
    rw [hattempt] at h
    cases h
    exact he
  induction remaining generalizing attempt with
  | zero =>
    have hone : (∀ k ≤ 0, (∀ i < k, Rejected env st schemaMessage (answer (attempt + i))) →
        ∀ result, answer (attempt + k) = .ok result →
          AnswerReadable env st schemaMessage (k = 0) result) ↔
        ∀ result, answer attempt = .ok result →
          AnswerReadable env st schemaMessage True result := by
      simp
    rw [hone]
    cases hanswer : answer attempt with
    | error message =>
      have hrun : attempts env st schemaMessage answer 0 attempt =
          .error (hermesInvalidResponse message) := by
        unfold attempts
        simp only [hanswer]
        rfl
      rw [hrun]
      refine iff_of_true ⟨message, rfl⟩ ?_
      rintro result ⟨⟩
    | ok result =>
      simp only [Except.ok.injEq, forall_eq']
      by_cases hrejects : ∃ left, Rejects env st schemaMessage result left
      · obtain ⟨left, hleft⟩ := hrejects
        rw [attempts_zero_of_rejects hanswer hleft, fallbackAttempt_contained_iff]
        constructor
        · intro h
          refine ⟨hshaped hleft, fun _ left' hleft' => ?_⟩
          obtain ⟨e, hattempt, -⟩ := hleft
          obtain ⟨e', hattempt', -⟩ := hleft'
          rw [hattempt] at hattempt'
          cases hattempt'
          exact h
        · exact fun h => h.fallback trivial left hleft
      · rw [hdecided 0 attempt result hanswer hrejects]
        exact ⟨fun h => ⟨h, fun _ left hleft => absurd ⟨left, hleft⟩ hrejects⟩, fun h => h.strict⟩
  | succ remaining ih =>
    by_cases hfirst : Rejected env st schemaMessage (answer attempt)
    · rw [attempts_succ_of_rejected hfirst]
      refine ih.trans ⟨?_, ?_⟩
      · intro h k hk hreached result hresult
        cases k with
        | zero =>
          obtain ⟨left, hleft⟩ := hfirst result hresult
          exact ⟨hshaped hleft, fun hlast => absurd hlast (Nat.succ_ne_zero _).symm⟩
        | succ k =>
          have hshift : ∀ i, attempt + 1 + i = attempt + (i + 1) := fun i => by omega
          obtain ⟨hstrict, hfallback⟩ := h k (by omega)
            (fun i hi => by rw [hshift]; exact hreached (i + 1) (by omega)) result
            (by rw [hshift]; exact hresult)
          exact ⟨hstrict, fun hlast => hfallback (by omega)⟩
      · intro h k hk hreached result hresult
        have hshift : ∀ i, attempt + 1 + i = attempt + (i + 1) := fun i => by omega
        obtain ⟨hstrict, hfallback⟩ := h (k + 1) (by omega) (fun i hi => by
          cases i with
          | zero => exact hfirst
          | succ i =>
            rw [← hshift]
            exact hreached i (by omega)) result (by rw [← hshift]; exact hresult)
        exact ⟨hstrict, fun hlast => hfallback (by omega)⟩
    · -- no later answer is asked for
      obtain ⟨result, hanswer, hrejects⟩ : ∃ result, answer attempt = .ok result ∧
          ¬ ∃ left, Rejects env st schemaMessage result left := by
        simpa [Rejected] using hfirst
      rw [hdecided (remaining + 1) attempt result hanswer hrejects]
      constructor
      · intro h k hk hreached result' hresult'
        cases k with
        | zero =>
          rw [Nat.add_zero, hanswer] at hresult'
          cases hresult'
          exact ⟨h, fun _ left hleft => absurd ⟨left, hleft⟩ hrejects⟩
        | succ k => exact absurd (hreached 0 (by omega)) hfirst
      · exact fun h => (h 0 (by omega) (fun i hi => by omega) result hanswer).strict

/-- **When every answer is contained.** -/
theorem processLogTriageMessage_contained_iff (env : Env) (st : Statistics)
    (schemaMessage : Json.Fields → PyStr) (answer : ℕ → Except PyStr Json.Fields)
    (hermesMaxOutputAttempts : ℤ) :
    Contained env (processLogTriageMessage env st schemaMessage answer hermesMaxOutputAttempts) ↔
      ∀ k < outputAttempts hermesMaxOutputAttempts, Reached env st schemaMessage answer k →
        ∀ result, answer k = .ok result → AnswerReadable env st schemaMessage
          (k + 1 = outputAttempts hermesMaxOutputAttempts) result := by
  have hpos : 0 < outputAttempts hermesMaxOutputAttempts := by
    unfold outputAttempts
    omega
  unfold processLogTriageMessage Reached
  rw [attempts_contained_iff]
  simp only [Nat.zero_add]
  constructor
  · intro h k hk hreached result hresult
    obtain ⟨hstrict, hfallback⟩ := h k (by omega) hreached result hresult
    exact ⟨hstrict, fun hlast => hfallback (by omega)⟩
  · intro h k hk hreached result hresult
    obtain ⟨hstrict, hfallback⟩ := h k (by omega) hreached result hresult
    exact ⟨hstrict, fun hlast => hfallback (by omega)⟩

/-- An answer with a null in the place of its first finding. -/
def nullFinding : Json.Fields :=
  [(py "key_finds", .arr [.null]), (py "secondary_finds", .arr [])]

/-- The first attempt at `nullFinding` ends the loop with a `TypeError`. -/
theorem nullFinding_escapes : ∃ st, preprocessLog sampleEnv sampleLog = .ok st ∧
    processLogTriageMessage sampleEnv st (fun _ => []) (fun _ => .ok nullFinding) 2 =
      .error .typeError ∧
    ¬ Contained sampleEnv
      (processLogTriageMessage sampleEnv st (fun _ => []) (fun _ => .ok nullFinding) 2) := by
  obtain ⟨st, -, -, hst, -, -⟩ := exists_run sampleEnv sampleLog false sampleResult
    (fun _ _ => true) (by decide +kernel)
  have hrun : processLogTriageMessage sampleEnv st (fun _ => []) (fun _ => .ok nullFinding) 2 =
      .error .typeError := rfl
  refine ⟨st, hst, hrun, ?_⟩
  rw [hrun]
  rintro ⟨message, ⟨⟩⟩

end Attempts

end Triage
