import NocReport.Jobs.Wire

set_option relaxedAutoImplicit false
set_option autoImplicit false

/-!
# A message and its retries

The body of a job message over any number of deliveries that fail: each one is validated and
claimed, which puts the claim token into the message, and its failure is settled, which publishes
the next body or a dead letter. Between two deliveries the body is written as JSON and read again;
that text is not followed here.

## Main definitions

* `Wire.Failure` — a delivery that fails.
* `Wire.settleEach` — what is published after some deliveries that fail, one after the other.
* `Wire.resent` — a message after some retries.

## Main results

* `Wire.settleEach_retry_iff` — after how many failures a message is still retried, and as what.
* `Wire.settleEach_deadLetter_iff` — after which failure it is a dead letter, and which one.
-/

namespace Wire

open Schema Jobs

/-- A delivery that fails: the token of its claim, and what is raised. -/
structure Failure where
  claimToken : PyStr
  exc : PyException

section Chain

variable (formatOk : PyStr → PyStr → Bool) (lower : PyStr → PyStr) (maxAttempts : ℕ)

/-- What is published after a delivery that fails; `none` when the body is refused before it is
claimed. -/
def settleDelivery (message : Json.Fields) (failure : Failure) : Option Settlement :=
  if validJobMessage formatOk (.obj message) then
    settleFailure lower maxAttempts (claimedMessage message failure.claimToken) failure.exc
  else none

/-- What is published after some deliveries that fail, one after the other; `none` when one of
them does not happen. -/
def settleEach : Json.Fields → List Failure → Option Settlement
  | message, [] => some (.retry message)
  | message, failure :: failures =>
    match settleDelivery formatOk lower maxAttempts message failure with
    | some (.retry body) => settleEach body failures
    | some (.deadLetter body) => if failures = [] then some (.deadLetter body) else none
    | none => none

end Chain

/-- The attempt of a message, as `_settle_failure` reads it. -/
def attemptOf (message : Json.Fields) : ℤ :=
  ((Dict.get? message (py "attempt")).bind toInt?).getD 1

/-- A message after some retries. -/
def resent (message : Json.Fields) (retries : ℕ) : Json.Fields :=
  if retries = 0 then message
  else Dict.set message (py "attempt") (.int (attemptOf message + retries))

variable {formatOk : PyStr → PyStr → Bool} {lower : PyStr → PyStr} {maxAttempts : ℕ}
  {message body : Json.Fields} {failure : Failure} {failures : List Failure} {out : Settlement}

/-! ## What the contract says about a message -/

/-- A number that the contract allows as an attempt. -/
lemma toInt?_of_accepts {v : Json}
    (h : (Schema.all [.type [.integer], .minimum 1]).accepts formatOk v = true) :
    ∃ attempt, toInt? v = some attempt ∧ 1 ≤ attempt := by
  rw [accepts_all] at h
  simp only [List.forall_mem_cons, accepts, List.any_cons, List.any_nil, Bool.or_false] at h
  obtain ⟨hinteger, hminimum, -⟩ := h
  cases v with
  | int i =>
    have hi : (1 : ℚ) ≤ i := by simpa [numberLt] using hminimum
    exact ⟨i, rfl, by exact_mod_cast hi⟩
  | float f =>
    cases f with
    | finite q =>
      have hden : q.den = 1 := by simpa [JsonType.has] using hinteger
      have hq : (1 : ℚ) ≤ q := by simpa [numberLt] using hminimum
      refine ⟨q.num, by simp [toInt?, hden], ?_⟩
      rw [← Rat.num_div_den q, hden, Nat.cast_one, div_one] at hq
      exact_mod_cast hq
    | _ => simp [JsonType.has] at hinteger
  | _ => simp [JsonType.has] at hinteger

section Valid

variable (hvalid : validJobMessage formatOk (.obj message) = true)
include hvalid

/-- A valid message has an attempt, which is positive. -/
lemma attempt_of_valid :
    (Dict.get? message (py "attempt")).bind toInt? = some (attemptOf message) ∧
      1 ≤ attemptOf message := by
  obtain ⟨hrequired, -, hproperties⟩ := validJobMessage_obj.mp hvalid
  obtain ⟨v, hv⟩ := Option.ne_none_iff_exists'.mp fun hnone =>
    (Dict.get?_eq_none_iff _ _).mp hnone (hrequired (py "attempt") (by simp [jobMessageRequired]))
  have haccepts := hproperties (py "attempt", .all [.type [.integer], .minimum 1])
    (by simp [jobMessageProperties]) v hv
  obtain ⟨attempt, hint, hone⟩ := toInt?_of_accepts haccepts
  have hattempt : attemptOf message = attempt := by
    rw [attemptOf, hv, Option.bind_some, hint, Option.getD_some]
  rw [hv, Option.bind_some, hint, hattempt]
  exact ⟨rfl, hone⟩

/-- A valid message has no private field: the body of its retry is the message with the next
attempt. -/
lemma retryBody_eq (claimToken : PyStr) (attempt : ℤ) :
    retryBody (claimedMessage message claimToken) attempt =
      Dict.set message (py "attempt") (.int (attempt + 1)) := by
  have hpublic : ∀ k ∈ Dict.keys message, (py "_").isPrefixOf k = false := fun k hk =>
    not_private_of_mem_properties ((validJobMessage_obj.mp hvalid).2.1 k hk)
  have hnew : py "_claim_token" ∉ Dict.keys message := fun hk =>
    absurd (hpublic _ hk) (by decide)
  have hkept : message.filter (fun p => !(py "_").isPrefixOf p.1) = message := by
    rw [List.filter_eq_self]
    intro p hp
    rw [hpublic p.1 (List.mem_map_of_mem hp)]
    rfl
  have hprivate : [(py "_claim_token", Json.str claimToken)].filter
      (fun p => !(py "_").isPrefixOf p.1) = [] := rfl
  rw [retryBody, claimedMessage, Dict.set_of_notMem _ hnew, List.filter_append, hkept, hprivate,
    List.append_nil]

variable (lower maxAttempts) in
/-- What a delivery of a valid message that fails publishes. -/
lemma settleDelivery_eq (failure : Failure) :
    ∃ jobId jobType, Dict.get? message (py "job_id") = some jobId ∧
      Dict.get? message (py "job_type") = some jobType ∧
      settleDelivery formatOk lower maxAttempts message failure =
        if classifyFailure lower failure.exc ≠ .terminal ∧ attemptOf message < maxAttempts then
          some (.retry (Dict.set message (py "attempt") (.int (attemptOf message + 1))))
        else some (.deadLetter (deadLetterBody jobId jobType (attemptOf message) failure.exc)) := by
  have hfield : ∀ k ∈ jobMessageRequired, ∃ v, Dict.get? message k = some v := by
    intro k hk
    exact Option.ne_none_iff_exists'.mp fun hnone =>
      (Dict.get?_eq_none_iff _ _).mp hnone ((validJobMessage_obj.mp hvalid).1 k hk)
  obtain ⟨jobId, hid⟩ := hfield (py "job_id") (by simp [jobMessageRequired])
  obtain ⟨jobType, htype⟩ := hfield (py "job_type") (by simp [jobMessageRequired])
  obtain ⟨v, hv⟩ := hfield (py "attempt") (by simp [jobMessageRequired])
  have hint := (attempt_of_valid hvalid).1
  rw [hv, Option.bind_some] at hint
  have hkeep : ∀ k, k ≠ py "_claim_token" →
      Dict.get? (claimedMessage message failure.claimToken) k = Dict.get? message k :=
    fun k hk => Dict.get?_set_of_ne _ _ hk
  refine ⟨jobId, jobType, hid, htype, ?_⟩
  rw [settleDelivery, if_pos hvalid, settleFailure, hkeep _ (by simp), hkeep _ (by simp),
    hkeep _ (by simp), hid, hv, htype]
  simp only [Option.bind_eq_bind, Option.bind_some, Option.getD_some, hint,
    retryBody_eq hvalid failure.claimToken]
  rfl

/-- The message after a retry is valid, and its attempt is the next one. -/
lemma valid_next :
    validJobMessage formatOk
        (.obj (Dict.set message (py "attempt") (.int (attemptOf message + 1)))) = true ∧
      attemptOf (Dict.set message (py "attempt") (.int (attemptOf message + 1))) =
        attemptOf message + 1 := by
  have hone := (attempt_of_valid hvalid).2
  constructor
  · rw [← retryBody_eq hvalid []]
    exact retryBody_valid hvalid [] (by omega)
  · simp [attemptOf, toInt?]

end Valid

/-! ## Retries and dead letters -/

/-- The next retry of a message is a later one of the message before. -/
lemma resent_succ (message : Json.Fields) (retries : ℕ) :
    resent (Dict.set message (py "attempt") (.int (attemptOf message + 1))) retries =
      resent message (retries + 1) := by
  have hnext : attemptOf (Dict.set message (py "attempt") (.int (attemptOf message + 1))) =
      attemptOf message + 1 := by
    simp [attemptOf, toInt?]
  rw [resent, resent, if_neg retries.succ_ne_zero]
  split
  · next hzero => simp [hzero]
  · rw [hnext, Dict.set_set]
    congr 2
    push_cast
    omega

/-- **How long a message is retried.** After some deliveries that fail, a valid message is
published once more if none of the failures is terminal and attempts are left for as many; it is
then the same message, but for the number of its attempt. -/
lemma settleEach_retry_iff (hvalid : validJobMessage formatOk (.obj message) = true) :
    settleEach formatOk lower maxAttempts message failures = some (.retry body) ↔
      (∀ failure ∈ failures, classifyFailure lower failure.exc ≠ .terminal) ∧
      (failures ≠ [] → attemptOf message + failures.length ≤ maxAttempts) ∧
      body = resent message failures.length := by
  induction failures generalizing message with
  | nil => simp [settleEach, resent, eq_comm]
  | cons failure failures ih =>
    obtain ⟨jobId, jobType, -, -, hdelivery⟩ :=
      settleDelivery_eq lower maxAttempts hvalid failure
    obtain ⟨hvalid', hattempt⟩ := valid_next hvalid
    rw [settleEach, hdelivery]
    by_cases hretry : classifyFailure lower failure.exc ≠ .terminal ∧
        attemptOf message < maxAttempts
    · simp only [if_pos hretry, ih hvalid', hattempt, resent_succ, List.length_cons]
      rw [List.forall_mem_cons, and_iff_right hretry.1]
      refine and_congr_right fun _ => and_congr_left fun _ => ?_
      push_cast
      constructor
      · intro h _
        cases failures with
        | nil =>
          rw [List.length_nil, Nat.cast_zero]
          omega
        | cons f fs =>
          have := h (List.cons_ne_nil f fs)
          omega
      · intro h _
        have := h (List.cons_ne_nil failure failures)
        omega
    · simp only [if_neg hretry]
      constructor
      · intro h
        split at h <;> cases h
      · rintro ⟨hterminal, hleft, -⟩
        have hleft := hleft (List.cons_ne_nil failure failures)
        rw [List.length_cons] at hleft
        push_cast at hleft
        exact absurd ⟨hterminal failure List.mem_cons_self, by omega⟩ hretry

/-- **When a message becomes a dead letter.** The last of some failures makes a dead letter of a
valid message if the message was retried until then, and the failure is terminal or no attempt is
left. -/
lemma settleEach_deadLetter_iff (hvalid : validJobMessage formatOk (.obj message) = true) :
    settleEach formatOk lower maxAttempts message failures = some (.deadLetter body) ↔
      ∃ before last jobId jobType, failures = before ++ [last] ∧
        settleEach formatOk lower maxAttempts message before =
          some (.retry (resent message before.length)) ∧
        (classifyFailure lower last.exc = .terminal ∨
          maxAttempts ≤ attemptOf message + before.length) ∧
        Dict.get? message (py "job_id") = some jobId ∧
        Dict.get? message (py "job_type") = some jobType ∧
        body = deadLetterBody jobId jobType (attemptOf message + before.length) last.exc := by
  induction failures generalizing message with
  | nil => simp [settleEach]
  | cons failure failures ih =>
    obtain ⟨jobId, jobType, hid, htype, hdelivery⟩ :=
      settleDelivery_eq lower maxAttempts hvalid failure
    obtain ⟨hvalid', hattempt⟩ := valid_next hvalid
    rw [settleEach, hdelivery]
    by_cases hretry : classifyFailure lower failure.exc ≠ .terminal ∧
        attemptOf message < maxAttempts
    · simp only [if_pos hretry, ih hvalid', hattempt, resent_succ]
      have hfields : ∀ k, k ≠ py "attempt" → Dict.get? (Dict.set message (py "attempt")
          (.int (attemptOf message + 1))) k = Dict.get? message k :=
        fun k hk => Dict.get?_set_of_ne _ _ hk
      rw [hfields _ (by simp), hfields _ (by simp)]
      constructor
      · rintro ⟨before, last, jobId, jobType, rfl, hbefore, hlast, hid, htype, rfl⟩
        refine ⟨failure :: before, last, jobId, jobType, rfl, ?_, ?_, hid, htype, ?_⟩
        · simp only [settleEach, hdelivery, if_pos hretry]
          exact hbefore
        · rw [List.length_cons]
          push_cast
          exact hlast.imp_right fun h => by omega
        · rw [List.length_cons]
          push_cast
          congr 1
          omega
      · rintro ⟨before, last, jobId, jobType, hsplit, hbefore, hlast, hid, htype, rfl⟩
        cases before with
        | nil =>
          -- the first failure is retried
          obtain ⟨rfl, rfl⟩ := List.cons.inj hsplit
          rcases hlast with hlast | hlast
          · exact absurd hlast hretry.1
          · rw [List.length_nil, Nat.cast_zero] at hlast
            exact absurd hretry.2 (by omega)
        | cons first before =>
          obtain ⟨rfl, rfl⟩ := List.cons.inj hsplit
          simp only [settleEach, hdelivery, if_pos hretry, List.length_cons] at hbefore
          rw [List.length_cons] at hlast
          push_cast at hlast
          refine ⟨before, last, jobId, jobType, rfl, hbefore, hlast.imp_right fun h => by omega,
            hid, htype, ?_⟩
          rw [List.length_cons]
          push_cast
          congr 1
          omega
    · simp only [if_neg hretry]
      constructor
      · intro h
        split at h
        · next hnil =>
          cases h
          subst hnil
          refine ⟨[], failure, jobId, jobType, rfl, by simp [settleEach, resent], ?_, hid, htype,
            by simp⟩
          rw [List.length_nil, Nat.cast_zero]
          by_contra hno
          rw [not_or] at hno
          exact hretry ⟨hno.1, by omega⟩
        · cases h
      · rintro ⟨before, last, jobId', jobType', hsplit, hbefore, hlast, hid', htype', rfl⟩
        cases before with
        | nil =>
          obtain ⟨rfl, rfl⟩ := List.cons.inj hsplit
          cases hid.symm.trans hid'
          cases htype.symm.trans htype'
          simp
        | cons first before =>
          obtain ⟨rfl, rfl⟩ := List.cons.inj hsplit
          simp only [settleEach, hdelivery, if_neg hretry] at hbefore
          split at hbefore <;> cases hbefore

/-- A valid message is valid after any number of retries. -/
lemma valid_resent (hvalid : validJobMessage formatOk (.obj message) = true) (retries : ℕ) :
    validJobMessage formatOk (.obj (resent message retries)) = true ∧
      attemptOf (resent message retries) = attemptOf message + retries := by
  induction retries generalizing message with
  | zero => exact ⟨hvalid, by simp [resent]⟩
  | succ retries ih =>
    obtain ⟨hvalid', hattempt⟩ := valid_next hvalid
    obtain ⟨hresent, hcount⟩ := ih hvalid'
    rw [resent_succ] at hresent hcount
    refine ⟨hresent, hcount.trans ?_⟩
    rw [hattempt]
    push_cast
    omega

/-- **A message survives its retries.** Whatever failures the deliveries of a valid message end in,
the message is retried exactly as long as none is terminal and attempts are left, always valid and
unchanged but for the number of its attempt; and it becomes a dead letter exactly at the first
failure that is terminal or leaves no attempt, with the number of that attempt. -/
theorem message_survives_retries (formatOk : PyStr → PyStr → Bool) (lower : PyStr → PyStr)
    (maxAttempts : ℕ) (message : Json.Fields)
    (hvalid : validJobMessage formatOk (.obj message) = true) (failures : List Failure) :
    (∀ body, settleEach formatOk lower maxAttempts message failures = some (.retry body) ↔
      (∀ failure ∈ failures, classifyFailure lower failure.exc ≠ .terminal) ∧
      (failures ≠ [] → attemptOf message + failures.length ≤ maxAttempts) ∧
      body = resent message failures.length) ∧
    (∀ body, settleEach formatOk lower maxAttempts message failures = some (.deadLetter body) ↔
      ∃ before last jobId jobType, failures = before ++ [last] ∧
        settleEach formatOk lower maxAttempts message before =
          some (.retry (resent message before.length)) ∧
        (classifyFailure lower last.exc = .terminal ∨
          maxAttempts ≤ attemptOf message + before.length) ∧
        Dict.get? message (py "job_id") = some jobId ∧
        Dict.get? message (py "job_type") = some jobType ∧
        body = deadLetterBody jobId jobType (attemptOf message + before.length) last.exc) ∧
    ∀ retries, validJobMessage formatOk (.obj (resent message retries)) = true ∧
      attemptOf (resent message retries) = attemptOf message + retries :=
  ⟨fun _ => settleEach_retry_iff hvalid, fun _ => settleEach_deadLetter_iff hvalid,
    valid_resent hvalid⟩

/-- A failure that is retried. -/
def lostConnection : Failure where
  claimToken := py "token"
  exc := {
    typeName := py "OperationalError"
    retryable := none
    errorCode := none
    isInstance := fun _ => false
    message := py "server closed the connection unexpectedly" }

/-- The second failure of three attempts is retried as the third one. -/
theorem message_survives_retries_twice :
    settleEach (fun _ _ => true) id 3 sampleMessage [lostConnection, lostConnection] =
      some (.retry (Dict.set sampleMessage (py "attempt") (.int 3))) := by
  have hvalid : validJobMessage (fun _ _ => true) (.obj sampleMessage) = true := by decide
  have hattempt : attemptOf sampleMessage = 1 := by decide
  refine ((message_survives_retries _ id 3 sampleMessage hvalid [lostConnection, lostConnection]).1
    _).mpr ⟨by decide, fun _ => by simp [hattempt], ?_⟩
  simp [resent, hattempt]

end Wire
