import Mathlib.Data.List.Chain
import NocReport.Foundation.JsonNumbers
import NocReport.Foundation.TextFiles
import NocReport.Jobs.Wire
import NocReport.Triage.Statistics

set_option relaxedAutoImplicit false
set_option autoImplicit false

/-!
# One delivery of a log analysis

What `handle_delivery` (`bridge/noc_bridge/worker.py`) does with a job message after the claim. It
first looks for the result of an earlier attempt, for which it computes the statistics of the
evidence, and only then analyses the log; both parts decode the evidence, each in its own way. The
calls of the database, the store and the runtime are parameters, and the database and the broker
answer while the delivery is settled.

## Main definitions

* `Delivery.Calls` — the calls of a delivery, with what they raise.
* `Delivery.reconcile`, `Delivery.processLogTriage` — the two parts.
* `Delivery.handleDelivery` — the delivery, with the row and the message it leaves.
* `Delivery.DeadLettered` — the job has failed for good.

## Main results

* `Delivery.classifyFailure_unicodeDecodeError`, `Delivery.classifyFailure_decodeEvidence` — how
  both parts classify evidence that is not UTF-8.
* `Delivery.invalidEvidence_deadLettered_iff` — when a delivery with such evidence is dead-lettered.
-/

namespace Delivery

open Jobs TextFile Wire

/-! ## Decoding the evidence -/

/-- The `UnicodeDecodeError` that `read_text` lets through. -/
def unicodeDecodeError (raw : List UInt8) (e : UnicodeDecodeError) : PyException where
  typeName := py "UnicodeDecodeError"
  retryable := none
  errorCode := none
  isInstance := fun cls => cls == .valueError
  message := e.message raw

/-- `EvidenceVerificationError`. -/
def evidenceVerificationError (message : PyStr) : PyException where
  typeName := py "EvidenceVerificationError"
  retryable := some false
  errorCode := some (py "EVIDENCE_VERIFICATION_FAILED")
  isInstance := fun _ => false
  message := message

/-- `JobLeaseError`. -/
def jobLeaseError (message : PyStr) : PyException where
  typeName := py "JobLeaseError"
  retryable := some true
  errorCode := some (py "JOB_LEASE_LOST")
  isInstance := fun _ => false
  message := message

/-- `evidence_path.read_text(encoding="utf-8")`. -/
def readEvidence (raw : List UInt8) : Except PyException PyStr :=
  (readText raw).mapError (unicodeDecodeError raw)

/-- `raw_bytes.decode("utf-8")`, with `UnicodeDecodeError` translated. -/
def decodeEvidence (raw : List UInt8) : Except PyException PyStr :=
  (decodeUtf8 raw).mapError fun _ =>
    evidenceVerificationError (py "log evidence is not valid UTF-8")

/-! ## The delivery -/

/-- The calls of a delivery. -/
structure Calls where
  /-- `get_db_connection` -/
  getDbConnection : Except PyException Unit
  /-- `_incident_and_evidence` -/
  incidentAndEvidence : Except PyException Unit
  /-- `materialize_snapshot` -/
  materializeSnapshot : Except PyException Unit
  /-- `json.loads` of the output schema of the skill -/
  outputSchema : Except PyException Json
  /-- `download_object` of the evidence -/
  downloadObject : Except PyException Unit
  /-- `preprocess_log` -/
  preprocessLog : PyStr → Except PyException Triage.Statistics
  /-- `_artifact_exists_and_valid` -/
  artifactExistsAndValid : Json → Triage.Statistics → Except PyException Bool
  /-- leaving the scratch directory and `db_conn.close()` -/
  close : Except PyException Unit
  /-- what `_process_log_triage_message` does before it decodes the evidence -/
  prepareAnalysis : Except PyException Unit
  /-- what it does afterwards -/
  analyze : PyStr → Except PyException Unit
  /-- `get_db_connection` for `mark_completed` -/
  doneConnection : Except PyException Unit

/-- `try: body finally: last`: what `last` raises counts more than what `body` raises. -/
def tryFinally {α : Type} (body : Except PyException α) (last : Except PyException Unit) :
    Except PyException α := do
  last
  body

/-- Everything before the evidence is decoded. -/
def Calls.fetchEvidence (calls : Calls) : Except PyException Json := do
  calls.incidentAndEvidence
  calls.materializeSnapshot
  let schema ← calls.outputSchema
  calls.downloadObject
  return schema

/-- The crash reconciliation of `handle_delivery`: whether there is a result of an earlier
attempt. -/
def reconcile (calls : Calls) (raw : List UInt8) : Except PyException Bool := do
  calls.getDbConnection
  tryFinally (do
    let schema ← calls.fetchEvidence
    let statistics ← calls.preprocessLog (← readEvidence raw)
    calls.artifactExistsAndValid schema statistics) calls.close

/-- `_process_log_triage_message`. -/
def processLogTriage (calls : Calls) (raw : List UInt8) : Except PyException Unit := do
  calls.prepareAnalysis
  calls.analyze (← decodeEvidence raw)

/-- Both parts up to `mark_completed`, with what is raised when that finds the lease lost. -/
def attemptJob (calls : Calls) (raw : List UInt8) : Except PyException PyException := do
  let lost ← if ← reconcile calls raw then
    pure (py "job lease was lost during artifact reconciliation")
  else do
    processLogTriage calls raw
    pure (py "job lease was lost before completion")
  calls.doneConnection
  return jobLeaseError lost

/-- The row of the job after a delivery, and what has been published. -/
structure Outcome where
  row : JobRow
  settlement : Option Settlement

/-- `_settle_failure`. -/
def settle (lower : PyStr → PyStr) (maxAttempts : ℕ) (tok : Token) (message : Json.Fields)
    (attempt : ℤ) (row : JobRow) (exc : PyException) : Option Outcome := do
  let failed := (row.markFailed (some tok)).1
  match ← settleFailure lower maxAttempts message exc with
  | .retry body =>
    return ⟨(failed.bumpAttempt (attempt + 1).toNat).markRetrying, some (.retry body)⟩
  | .deadLetter body => return ⟨failed, some (.deadLetter body)⟩

/-- `handle_delivery` of a valid `log_triage` message whose evidence has the bytes `raw`, from the
claim on; `none` when the job is not claimed or the message lacks a field. -/
def handleDelivery (lower : PyStr → PyStr) (maxAttempts : ℕ) (calls : Calls) (raw : List UInt8)
    (now leaseSeconds : ℕ) (tok : Token) (tokenText : PyStr) (message : Json.Fields)
    (row : JobRow) : Option Outcome := do
  let claimed ← row.claimUpdate now leaseSeconds tok
  let attempt ← toInt? ((Dict.get? message (py "attempt")).getD (.int 1))
  let claimed := claimed.bumpAttempt attempt.toNat
  let message := claimedMessage message tokenText
  match attemptJob calls raw with
  | .error exc => settle lower maxAttempts tok message attempt claimed exc
  | .ok lost =>
    let completed := claimed.markCompleted (some tok)
    if completed.2 then return ⟨completed.1, none⟩
    else settle lower maxAttempts tok message attempt claimed lost

/-- The job has failed at this attempt, and its message is in the dead-letter queue. -/
def DeadLettered (outcome : Option Outcome) : Prop :=
  ∃ row body, outcome = some ⟨row, some (.deadLetter body)⟩ ∧ row.status = .failed

/-- The first exception that another call than the decoding raises, up to the decoding. -/
def Calls.raised (calls : Calls) : Option PyException :=
  match calls.getDbConnection, calls.close, calls.fetchEvidence with
  | .error exc, _, _ => some exc
  | .ok _, .error exc, _ => some exc
  | .ok _, .ok _, .error exc => some exc
  | .ok _, .ok _, .ok _ => none

/-! ## Texts of decoding errors -/

section Markers

/-- The pairs of characters that do not follow one another in the text of a decoding error: one of
each marker of a terminal failure. -/
def absentPairs : List PyStr :=
  [py "au", py "su", py "sc", py "ev", py "mp", py "cu", py "ss"]

/-- The characters can follow one another in the text of a decoding error. -/
abbrev Follows (a b : ℕ) : Prop := [a, b] ∉ absentPairs

lemma follows_decimal {a b : ℕ} (hb : PyJson.isDecimal b = true) : Follows a b := by
  have hlast : ∀ p ∈ absentPairs, ∀ d ∈ p.getLast?, PyJson.isDecimal d = false := by decide
  intro hmem
  have := hlast _ hmem b rfl
  rw [hb] at this
  cases this

lemma decimal_follows {a b : ℕ} (ha : PyJson.isDecimal a = true) : Follows a b := by
  have hfirst : ∀ p ∈ absentPairs, ∀ d ∈ p.head?, PyJson.isDecimal d = false := by decide
  intro hmem
  have := hfirst _ hmem a rfl
  rw [ha] at this
  cases this

lemma isChain_ofNat (n : ℕ) : (PyStr.ofNat n).IsChain Follows := by
  have hall : ∀ t : PyStr, (∀ c ∈ t, PyJson.isDecimal c = true) → t.IsChain Follows := by
    intro t ht
    induction t with
    | nil => exact .nil
    | cons c t ih =>
      obtain ⟨hc, ht⟩ := List.forall_mem_cons.mp ht
      rw [List.isChain_cons]
      exact ⟨fun d _ => decimal_follows hc, ih ht⟩
  exact hall _ fun c hc => PyJson.isDecimal_of_mem_ofNat hc

/-- A number between two texts. -/
lemma isChain_around (front back : PyStr) (n : ℕ) (hfront : front.IsChain Follows)
    (hback : back.IsChain Follows) : (front ++ PyStr.ofNat n ++ back).IsChain Follows := by
  obtain ⟨hne, hdigits⟩ := PyJson.isDigits_ofNat n
  refine List.isChain_append.mpr ⟨List.isChain_append.mpr ⟨hfront, isChain_ofNat n, ?_⟩, hback, ?_⟩
  · intro a _ b hb
    exact follows_decimal (hdigits b (List.mem_of_mem_head? hb))
  · intro a ha b _
    rw [List.getLast?_append_of_ne_nil _ hne] at ha
    exact decimal_follows (hdigits a (List.mem_of_mem_getLast? ha))

lemma isChain_byte : ∀ h < 16, ∀ l < 16, (py "'utf-8' codec can't decode byte 0x" ++
    [if h < 10 then 48 + h else 87 + h, if l < 10 then 48 + l else 87 + l] ++
      py " in position ").IsChain Follows := by
  decide +kernel

/-- The text of a decoding error has none of the pairs. -/
lemma isChain_message {raw : List UInt8} {e : UnicodeDecodeError} (he : e.reason ∈ reasons) :
    (e.message raw).IsChain Follows := by
  have hreason : (py ": " ++ e.reason).IsChain Follows := by
    have hall : ∀ reason ∈ reasons, (py ": " ++ reason).IsChain Follows := by decide
    exact hall e.reason he
  have hbyte := (raw.getD e.start 0).toNat_lt
  unfold UnicodeDecodeError.message
  dsimp only
  split
  · have hfront := isChain_byte ((raw.getD e.start 0).toNat / 16) (by omega)
      ((raw.getD e.start 0).toNat % 16) (by omega)
    simpa [py] using isChain_around _ _ e.start hfront hreason
  · have hmiddle := isChain_around (py "'utf-8' codec can't decode bytes in position ") (py "-")
      e.start (by decide) (by decide)
    simpa [py] using isChain_around _ _ (e.stop - 1) hmiddle hreason

/-- ASCII without capital letters. -/
def IsLowerAscii (s : PyStr) : Prop := ∀ c ∈ s, c < 128 ∧ ¬ (65 ≤ c ∧ c ≤ 90)

lemma isLowerAscii_message {raw : List UInt8} {e : UnicodeDecodeError} (he : e.reason ∈ reasons) :
    IsLowerAscii (e.message raw) := by
  have hnumber : ∀ n, IsLowerAscii (PyStr.ofNat n) := by
    intro n c hc
    have := PyJson.isDecimal_of_mem_ofNat hc
    simp only [PyJson.isDecimal, Bool.and_eq_true, decide_eq_true_eq] at this
    omega
  have hreason : IsLowerAscii e.reason := by
    have hall : ∀ reason ∈ reasons, ∀ c ∈ reason, c < 128 ∧ ¬ (65 ≤ c ∧ c ≤ 90) := by decide
    exact hall e.reason he
  have happend : ∀ {s t : PyStr}, IsLowerAscii s → IsLowerAscii t → IsLowerAscii (s ++ t) :=
    fun hs ht => List.forall_mem_append.mpr ⟨hs, ht⟩
  have hfixed : ∀ {s : PyStr}, (∀ c ∈ s, c < 128 ∧ ¬ (65 ≤ c ∧ c ≤ 90)) → IsLowerAscii s := id
  have hbyte := (raw.getD e.start 0).toNat_lt
  unfold UnicodeDecodeError.message
  dsimp only
  refine happend (happend (happend (hfixed (by decide)) ?_) (hfixed (by decide))) hreason
  split
  · refine happend (happend (happend (hfixed (by decide)) ?_) (hfixed (by decide))) (hnumber _)
    intro c hc
    simp only [List.mem_cons, List.not_mem_nil, or_false] at hc
    rcases hc with rfl | rfl
    · split <;> omega
    · split <;> omega
  · exact happend (happend (happend (hfixed (by decide)) (hnumber _)) (hfixed (by decide)))
      (hnumber _)

end Markers

/-! ## Classification -/

section Classification

variable {lower : PyStr → PyStr}

/-- Evidence that the reconciliation cannot decode is worth another try. -/
lemma classifyFailure_unicodeDecodeError (hlower : ∀ s, IsLowerAscii s → lower s = s)
    {raw : List UInt8} {e : UnicodeDecodeError} (he : e.reason ∈ reasons) :
    classifyFailure lower (unicodeDecodeError raw e) = .retryable := by
  have habsent : ∀ marker, ¬ marker.IsChain Follows → ¬ marker <:+: lower (e.message raw) := by
    intro marker hmarker hinfix
    rw [hlower _ (isLowerAscii_message he)] at hinfix
    obtain ⟨left, right, hmessage⟩ := hinfix
    have hchain : (e.message raw).IsChain Follows := isChain_message he
    rw [← hmessage] at hchain
    exact hmarker hchain.left_of_append.right_of_append
  have hmarkers : ∀ marker ∈ terminalMessageMarkers, ¬ marker.IsChain Follows := by decide
  have hunsupported : ¬ py "unsupported" <:+: lower (e.message raw) := habsent _ (by decide)
  have hany : (terminalMessageMarkers.any fun marker =>
      decide (marker <:+: lower (e.message raw))) = false := by
    rw [List.any_eq_false]
    intro marker hmem
    simpa using habsent marker (hmarkers marker hmem)
  unfold classifyFailure unicodeDecodeError
  dsimp only
  rw [hany]
  simp [hunsupported]

/-- Evidence that the analysis cannot decode is not. -/
lemma classifyFailure_decodeEvidence {raw : List UInt8} {exc : PyException}
    (h : decodeEvidence raw = .error exc) : classifyFailure lower exc = .terminal := by
  unfold decodeEvidence at h
  cases hraw : decodeUtf8 raw with
  | error e =>
    rw [hraw] at h
    cases h
    rfl
  | ok text =>
    rw [hraw] at h
    cases h

end Classification

/-! ## Deliveries of invalid evidence -/

section Invalid

variable {lower : PyStr → PyStr} {maxAttempts : ℕ} {calls : Calls} {raw : List UInt8}
  {e : UnicodeDecodeError}

/-- A delivery of invalid evidence fails, at the latest when the reconciliation decodes it. -/
lemma attemptJob_invalid (h : decodeUtf8 raw = .error e) :
    attemptJob calls raw = .error (calls.raised.getD (unicodeDecodeError raw e)) := by
  have hread : readEvidence raw = .error (unicodeDecodeError raw e) := by
    rw [readEvidence, readText, h]
    rfl
  unfold attemptJob reconcile tryFinally Calls.raised
  cases calls.getDbConnection with
  | error exc => rfl
  | ok _ =>
    cases calls.close with
    | error exc => rfl
    | ok _ =>
      cases calls.fetchEvidence with
      | error exc => rfl
      | ok schema =>
        rw [hread]
        rfl

/-- What is published for a failure of a valid message. -/
lemma settleFailure_valid (lower : PyStr → PyStr) (maxAttempts : ℕ)
    {formatOk : PyStr → PyStr → Bool} {message : Json.Fields} {attempt : ℤ}
    (hvalid : validJobMessage formatOk (.obj message) = true)
    (hattempt : (Dict.get? message (py "attempt")).bind toInt? = some attempt)
    (tokenText : PyStr) (exc : PyException) :
    ∃ jobId jobType, settleFailure lower maxAttempts (claimedMessage message tokenText) exc =
      some (if classifyFailure lower exc ≠ .terminal ∧ attempt < maxAttempts then
        .retry (retryBody (claimedMessage message tokenText) attempt)
      else .deadLetter (deadLetterBody jobId jobType attempt exc)) := by
  obtain ⟨hrequired, -, -⟩ := validJobMessage_obj.mp hvalid
  have hget : ∀ k ∈ jobMessageRequired, ∃ v, Dict.get? message k = some v := by
    intro k hk
    exact Option.ne_none_iff_exists'.mp fun hnone =>
      (Dict.get?_eq_none_iff _ _).mp hnone (hrequired k hk)
  have hkeep : ∀ k, k ≠ py "_claim_token" →
      Dict.get? (claimedMessage message tokenText) k = Dict.get? message k :=
    fun k hk => Dict.get?_set_of_ne _ _ hk
  obtain ⟨jobId, hid⟩ := hget (py "job_id") (by simp [jobMessageRequired])
  obtain ⟨jobType, htype⟩ := hget (py "job_type") (by simp [jobMessageRequired])
  obtain ⟨v, hv, hint⟩ := Option.bind_eq_some_iff.mp hattempt
  refine ⟨jobId, jobType, ?_⟩
  rw [settleFailure, hkeep _ (by simp), hkeep _ (by simp), hkeep _ (by simp), hid, hv, htype]
  simp only [Option.bind_eq_bind, Option.bind_some, Option.getD_some, hint]
  split <;> rfl

/-- A failure of a claimed delivery is dead-lettered unless it is worth another try and there is
another try. -/
lemma deadLettered_settle {formatOk : PyStr → PyStr → Bool} {message : Json.Fields} {attempt : ℤ}
    (hvalid : validJobMessage formatOk (.obj message) = true)
    (hattempt : (Dict.get? message (py "attempt")).bind toInt? = some attempt)
    {row : JobRow} {tok : Token} (hrow : row.claimToken = some tok) (tokenText : PyStr)
    (exc : PyException) :
    DeadLettered (settle lower maxAttempts tok (claimedMessage message tokenText) attempt row exc) ↔
      maxAttempts ≤ attempt ∨ classifyFailure lower exc = .terminal := by
  obtain ⟨jobId, jobType, hsettle⟩ := settleFailure_valid lower maxAttempts hvalid hattempt
    tokenText exc
  have hfailed : (row.markFailed (some tok)).1.status = .failed := by
    rw [JobRow.markFailed, if_pos (by simpa using hrow)]
  unfold settle
  rw [hsettle]
  by_cases hretry : classifyFailure lower exc ≠ .terminal ∧ attempt < maxAttempts
  · rw [if_pos hretry]
    refine iff_of_false ?_ (by simp only [not_or, not_le]; exact ⟨hretry.2, hretry.1⟩)
    rintro ⟨row', body, heq, -⟩
    cases heq
  · rw [if_neg hretry]
    refine iff_of_true ⟨_, _, rfl, hfailed⟩ ?_
    by_contra hnot
    rw [not_or, not_le] at hnot
    exact hretry ⟨hnot.2, hnot.1⟩

/-- A claimed delivery of invalid evidence is settled as a failure. -/
lemma handleDelivery_invalid (hraw : decodeUtf8 raw = .error e) {now leaseSeconds : ℕ} {tok : Token}
    {message : Json.Fields} {attempt : ℤ}
    (hattempt : (Dict.get? message (py "attempt")).bind toInt? = some attempt)
    {row claimed : JobRow} (hclaim : row.claimUpdate now leaseSeconds tok = some claimed)
    (tokenText : PyStr) :
    handleDelivery lower maxAttempts calls raw now leaseSeconds tok tokenText message row =
      settle lower maxAttempts tok (claimedMessage message tokenText) attempt
        (claimed.bumpAttempt attempt.toNat) (calls.raised.getD (unicodeDecodeError raw e)) := by
  obtain ⟨v, hv, hint⟩ := Option.bind_eq_some_iff.mp hattempt
  unfold handleDelivery
  simp only [hclaim, hv, hint, Option.bind_eq_bind, Option.bind_some, Option.getD_some,
    attemptJob_invalid hraw]

end Invalid

/-- **Invalid evidence is retried.** A claimed delivery of a log analysis whose evidence is not UTF-8
is dead-lettered at this attempt exactly when it is the last attempt, or when another call has
failed for good before: the reconciliation decodes the evidence first, and its `UnicodeDecodeError`
is worth another try. -/
theorem invalidEvidence_deadLettered_iff (lower : PyStr → PyStr)
    (hlower : ∀ s, IsLowerAscii s → lower s = s) (formatOk : PyStr → PyStr → Bool)
    (maxAttempts : ℕ) (calls : Calls) (raw : List UInt8) (e : UnicodeDecodeError)
    (hraw : decodeUtf8 raw = .error e) (now leaseSeconds : ℕ) (tok : Token) (tokenText : PyStr)
    (message : Json.Fields) (hvalid : validJobMessage formatOk (.obj message) = true)
    (attempt : ℤ) (hattempt : (Dict.get? message (py "attempt")).bind toInt? = some attempt)
    (row claimed : JobRow) (hclaim : row.claimUpdate now leaseSeconds tok = some claimed) :
    DeadLettered (handleDelivery lower maxAttempts calls raw now leaseSeconds tok tokenText message
        row) ↔
      maxAttempts ≤ attempt ∨
        ∃ exc, calls.raised = some exc ∧ classifyFailure lower exc = .terminal := by
  obtain ⟨-, -, htoken, -⟩ := JobRow.claimUpdate_eq_some hclaim
  have htoken' : (claimed.bumpAttempt attempt.toNat).claimToken = some tok := htoken
  rw [handleDelivery_invalid hraw hattempt hclaim, deadLettered_settle hvalid hattempt htoken']
  refine or_congr_right ?_
  cases hraised : calls.raised with
  | none => simp [classifyFailure_unicodeDecodeError hlower (decodeUtf8_reason hraw)]
  | some exc => simp

/-- The statistics of an empty log. -/
def emptyStatistics : Triage.Statistics where
  totalEntries := 0
  levelCounts := []
  errorCount := 0
  exceptionCount := 0
  exceptionCounts := []
  endpointCounts := []
  httpStatusCounts := []
  traceCounts := []
  userIdCounts := []
  recordIdCounts := []
  representativeEntries := []
  entryManifest := []
  timestampStart := none
  timestampEnd := none
  durationSeconds := none
  patternManifest := []
  patternFamilies := []

/-- Calls that raise nothing and find no result of an earlier attempt. -/
def quietCalls : Calls where
  getDbConnection := .ok ()
  incidentAndEvidence := .ok ()
  materializeSnapshot := .ok ()
  outputSchema := .ok (.obj [])
  downloadObject := .ok ()
  preprocessLog := fun _ => .ok emptyStatistics
  artifactExistsAndValid := fun _ _ => .ok false
  close := .ok ()
  prepareAnalysis := .ok ()
  analyze := fun _ => .ok ()
  doneConnection := .ok ()

/-- At the last attempt invalid evidence is dead-lettered. -/
theorem lastAttempt_deadLettered :
    DeadLettered (handleDelivery id 1 quietCalls [0xFF] 0 60 7 (py "t") sampleMessage .fresh) :=
  (invalidEvidence_deadLettered_iff id (fun _ _ => rfl) (fun _ _ => true) 1 quietCalls [0xFF]
    ⟨0, 1, py "invalid start byte"⟩ rfl 0 60 7 (py "t") sampleMessage (by decide) 1 rfl .fresh _
    rfl).mpr (.inl (by decide))

/-- Not every delivery of invalid evidence is: the first of three attempts is followed by another. -/
theorem invalidEvidence_retried :
    ¬ ∀ (lower : PyStr → PyStr), (∀ s, IsLowerAscii s → lower s = s) →
      ∀ (formatOk : PyStr → PyStr → Bool) (maxAttempts : ℕ) (calls : Calls) (raw : List UInt8)
        (e : UnicodeDecodeError), decodeUtf8 raw = .error e →
      ∀ (now leaseSeconds : ℕ) (tok : Token) (tokenText : PyStr) (message : Json.Fields),
        validJobMessage formatOk (.obj message) = true →
      ∀ (attempt : ℤ), (Dict.get? message (py "attempt")).bind toInt? = some attempt →
      ∀ (row claimed : JobRow), row.claimUpdate now leaseSeconds tok = some claimed →
      DeadLettered (handleDelivery lower maxAttempts calls raw now leaseSeconds tok tokenText
        message row) := by
  intro h
  have hraw : decodeUtf8 [0xFF] = .error ⟨0, 1, py "invalid start byte"⟩ := rfl
  have hvalid : validJobMessage (fun _ _ => true) (.obj sampleMessage) = true := by decide
  have hattempt : (Dict.get? sampleMessage (py "attempt")).bind toInt? = some 1 := rfl
  have hdead := h id (fun _ _ => rfl) (fun _ _ => true) 3 quietCalls [0xFF] _ hraw 0 60 7 (py "t")
    sampleMessage hvalid 1 hattempt .fresh _ rfl
  rw [handleDelivery_invalid hraw hattempt rfl, deadLettered_settle hvalid hattempt rfl] at hdead
  rcases hdead with hlast | hterminal
  · exact absurd hlast (by decide)
  · have hretryable : classifyFailure id (unicodeDecodeError [0xFF]
        ⟨0, 1, py "invalid start byte"⟩) = .retryable :=
      classifyFailure_unicodeDecodeError (fun _ _ => rfl) (decodeUtf8_reason hraw)
    exact absurd (hretryable.symm.trans hterminal) (by decide)

end Delivery
