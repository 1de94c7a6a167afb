import NocReport.Triage.Findings

set_option relaxedAutoImplicit false
set_option autoImplicit false

/-!
# Reconciliation by evidence entries

`_reconcile_entry_grouped_result` (`sandbox/preprocessing.py`): each finding that names evidence
entries gets all entries of their families and the exact counts; the entries nobody claimed are
appended, some families as findings of their own and the rest in one bucket.

## Main definitions

* `Triage.expandIds` — the entries of the families of some entries.
* `Triage.groupFinding`, `Triage.groupFindings` — the loop over the findings.
* `Triage.appendUnclaimed` — the appended findings.
* `Triage.reconcileEntryGrouped` — the whole.
-/

namespace Dict

variable {κ α : Type} [DecidableEq κ]

/-- The elements of a list by a key, each group in order, the groups in the order of their first
elements. -/
def groupBy (key : α → κ) (xs : List α) : Dict κ (List α) :=
  xs.foldl (fun d x => push d (key x) x) []

end Dict

namespace Triage

section Entries

variable (st : Statistics)

/-- `entry_by_id`. -/
def entryById : Dict ℕ Entry := Dict.ofList (st.entryManifest.map fun e => (e.id, e))

/-- `family_entries[family]`. -/
def familyEntries (family : PyStr) : List ℕ :=
  (st.entryManifest.filter fun e => e.familyId = some family ∧ family ≠ []).map (·.id)

/-- `pattern_entries[pattern_id]`. -/
def patternEntries (patternId : PyStr) : List ℕ :=
  (st.entryManifest.filter fun e => e.patternId = patternId).map (·.id)

/-- The entries an entry is expanded to. -/
def expandEntry (e : Entry) : List ℕ :=
  let byFamily := familyEntries st (e.familyId.getD [])
  if byFamily = [] then patternEntries st e.patternId else byFamily

/-- The entries some entries are expanded to, in order, without those that are claimed. -/
def expandIds (claimed ids : List ℕ) : List ℕ :=
  let all := (ids.filterMap (Dict.get? (entryById st))).flatMap (expandEntry st)
  (all.filter fun id => !claimed.contains id).eraseDups.insertionSort (· ≤ ·)

/-- The identity `_occurrence_count` counts an entry by. -/
def occurrence (id : ℕ) : PyStr :=
  match (Dict.get? (entryById st) id).bind (·.traceId) with
  | some (c :: cs) => py "trace:" ++ c :: cs
  | _ => py "entry:" ++ .ofNat id

/-- `_occurrence_count`. -/
def occurrenceCount (ids : List ℕ) : ℕ := (ids.map (occurrence st)).toFinset.card

end Entries

section Reconcile

variable (env : Env) (st : Statistics)

/-- `_semantic_pattern_id`, from the `id` of a finding. -/
def semanticPatternId (findingId : Json) : Except PyError PyStr := do
  let digest ← shortDigest env
    (py "semantic-v1:" ++ env.str (findingId.or (.str (py "finding"))))
  return py "semantic-" ++ digest

/-- An integer that is not a boolean. -/
def asInt (v : Json) : Option ℤ :=
  match v with
  | .int i => some i
  | _ => none

/-- The entry ids a finding names: all of them integers, and each of them known. -/
def readEntryIds (raw : Json) : Except PyError (List ℕ) := do
  let invalid := PyError.valueError (py "evidence_entry_ids must contain integer entry IDs")
  let items ← match raw with
    | .arr items => pure items
    | _ => throw invalid
  let ids ← items.mapM fun v => match asInt v with
    | some i => pure i
    | none => throw invalid
  ids.eraseDups.mapM fun i =>
    if 0 ≤ i ∧ Dict.contains (entryById st) i.toNat then pure i.toNat
    else throw (.valueError (py "unknown evidence entry id: " ++ .ofInt i))

/-- A list of entry ids. -/
def entryIds (ids : List ℕ) : Json := .arr (ids.map fun id : ℕ => .int (id : ℤ))

/-- The fields of a finding whose entries are `ids`. -/
def quantify (finding : Json.Fields) (patternId : PyStr) (ids : List ℕ) : Json.Fields :=
  let finding := Dict.set finding (py "pattern_ids") (texts [patternId])
  let finding := Dict.set finding (py "evidence_entry_ids") (entryIds ids)
  let finding := Dict.set finding (py "physical_entry_count") (.int ids.length)
  let finding := Dict.set finding (py "occurrence_count") (.int (occurrenceCount st ids))
  let finding := Dict.set finding (py "count") (.int ids.length)
  Dict.set finding (py "percentage") (percentage ids.length st.totalEntries)

/-- The fields of a finding without entries. -/
def unquantify (finding : Json.Fields) : Json.Fields :=
  let finding := Dict.set finding (py "pattern_ids") unquantifiedIds
  let finding := Dict.set finding (py "count") .null
  Dict.set finding (py "percentage") .null

/-- The entries a finding that names evidence claims, and the finding. -/
def claimEntries (claimed : List ℕ) (finding : Json.Fields) :
    Except PyError (Json.Fields × List ℕ) := do
  let ids ← readEntryIds st (finding.get (py "evidence_entry_ids"))
  match (ids.filter claimed.contains).min? with
  | some i => throw (.valueError
      (py "evidence entry assigned to more than one finding: " ++ .ofNat i))
  | none =>
    let expanded := expandIds st claimed ids
    if expanded = [] then return (unquantify finding, claimed)
    else
      let patternId ← semanticPatternId env (finding.get (py "id"))
      return (quantify st finding patternId expanded, claimed ++ expanded)

/-- One turn of the loop over the findings: the finding, and the entries claimed after it. -/
def groupFinding (claimed : List ℕ) (finding : Json) : Except PyError (Json × List ℕ) := do
  if ← hasEvidence finding then
    match finding with
    | .obj fields =>
      let (fields, claimed) ← claimEntries env st claimed fields
      return (.obj fields, claimed)
    | _ => throw .attributeError
  else return (finding, claimed)

/-- The loop over the findings of one list. A finding is changed only when its turn succeeds. -/
def groupFindings (claimed : List ℕ) :
    List Json → Except (Failure (List Json)) (List Json × List ℕ)
  | [] => .ok ([], claimed)
  | finding :: rest =>
    match groupFinding env st claimed finding with
    | .error e => .error (e, finding :: rest)
    | .ok (finding, claimed) =>
      match groupFindings claimed rest with
      | .error (e, rest) => .error (e, finding :: rest)
      | .ok (rest, claimed) => .ok (finding :: rest, claimed)

/-- The loop over one group. What is not a list has no findings, only texts. -/
def reconcileGroup (result : Json.Fields) (claimed : List ℕ) (name : PyStr) :
    Except (Failure Json.Fields) (Json.Fields × List ℕ) :=
  match Dict.get? result name with
  | none => .ok (result, claimed)
  | some (.arr items) =>
    match groupFindings env st claimed items with
    | .error (e, items) => .error (e, Dict.set result name (.arr items))
    | .ok (items, claimed) => .ok (Dict.set result name (.arr items), claimed)
  | some v =>
    match v.iter >>= fun items => items.foldlM (groupFinding env st ·.2 ·) (.null, claimed) with
    | .error e => .error (e, result)
    | .ok (_, claimed) => .ok (result, claimed)

/-! ## The appended findings -/

/-- The texts of an appended finding. -/
structure Presentation where
  labelEn : String
  labelZh : String
  detailEn : String
  detailZh : String

/-- `_RECOVERABLE_FAMILY_PRESENTATIONS`. -/
def recoverableFamilyPresentations : List (String × Presentation) :=
  [("sms-opted-out",
    { labelEn := "SMS recipient opted out"
      labelZh := "短信因收件人在退订名单中而失败"
      detailEn := "The recipient was on the provider opt-out list; this is a business rejection rather than an infrastructure failure."
      detailZh := "收件人在短信服务商退订名单中；这是业务拒绝而非基础设施故障。" }),
  ("sms-invalid-destination",
    { labelEn := "SMS destination validation failure"
      labelZh := "短信目标号码格式校验失败"
      detailEn := "The SMS provider rejected the destination format, so delivery could not proceed."
      detailZh := "短信服务商拒绝了目标号码格式，因此无法继续发送。" }),
  ("sms-command-failure",
    { labelEn := "SMS provider command failure"
      labelZh := "短信服务商命令失败"
      detailEn := "The SMS provider returned a command or destination error while processing delivery."
      detailZh := "短信服务商在处理发送时返回了命令或目标错误。" }),
  ("sms-missing-phone",
    { labelEn := "SMS user phone number missing"
      labelZh := "短信用户手机号缺失"
      detailEn := "The application could not send the marketing message because the user record had no phone number."
      detailZh := "由于用户记录缺少手机号，应用无法发送营销短信。" }),
  ("face-compare-timeout",
    { labelEn := "Face comparison timeout"
      labelZh := "人脸比对超时"
      detailEn := "The face-comparison fast path timed out and the service fell back to the alternate RunPod path."
      detailZh := "人脸比对快速路径超时，服务降级到备用RunPod路径。" }),
  ("login-account-empty",
    { labelEn := "Login account validation empty"
      labelZh := "登录账号校验为空"
      detailEn := "The login request did not resolve to an existing account; the log does not establish a broader service outage."
      detailZh := "登录请求未匹配到现有账号；日志无法证明这是更广泛的服务故障。" }),
  ("google-login-null",
    { labelEn := "Google login returned null"
      labelZh := "谷歌登录返回空结果"
      detailEn := "The Google login validation returned a null result and the file does not show the underlying cause."
      detailZh := "谷歌登录校验返回空结果，日志未说明具体原因。" }),
  ("generic:zipexception",
    { labelEn := "Export archive creation failure"
      labelZh := "导出压缩文件生成失败"
      detailEn := "An export job could not create its archive because the input file list was empty."
      detailZh := "导出任务因输入文件列表为空而无法生成压缩文件。" }),
  ("third-party-game-api",
    { labelEn := "Third-party game API failure"
      labelZh := "第三方游戏接口异常"
      detailEn := "A third-party FC/EVO game API request returned an error response; the file does not establish a shared cause with the other findings."
      detailZh := "第三方FC/EVO游戏接口返回错误；日志无法证明其与其他故障共享同一根因。" }),
  ("withdrawal-order-status",
    { labelEn := "Withdrawal order status unavailable"
      labelZh := "提现订单状态不可用"
      detailEn := "Withdrawal workers could not resolve the payment order status and received a null withdrawal record."
      detailZh := "提现异步任务无法解析支付订单状态，返回的提现记录为空。" }),
  ("export-file-missing",
    { labelEn := "Export file operation failure"
      labelZh := "导出文件操作失败"
      detailEn := "An export task reported a missing output file after attempting to complete the export."
      detailZh := "导出任务完成后未找到预期的输出文件。" }),
  ("generic:resourceaccessexception:sslexception",
    { labelEn := "Third-party game API transport failure"
      labelZh := "第三方游戏接口传输失败"
      detailEn := "A third-party game API request failed during transport with a resource-access/SSL exception."
      detailZh := "第三方游戏接口请求在传输阶段因资源访问或SSL异常失败。" })]

/-- The presentation of a family, if it has one. -/
def presentationOf (family : PyStr) : Option Presentation :=
  (recoverableFamilyPresentations.find? fun p => py p.1 = family).map (·.2)

/-- The presentation of the entries no finding and no presentation is about. -/
def otherActivity : Presentation where
  labelEn := "Other observed log activity"
  labelZh := "其他日志活动"
  detailEn := "These records were not assigned to a named semantic cause, so they remain included for complete evidence accounting."
  detailZh := "这些记录未被分配到已命名的语义故障，但仍保留在结果中以确保完整证据统计。"

/-- An appended finding. -/
def appendedFinding (id : PyStr) (p : Presentation) (ids : List ℕ) :
    Except PyError Json.Fields := do
  let patternId ← semanticPatternId env (.str id)
  return [(py "id", .str id), (py "label_en", literal p.labelEn), (py "label_zh", literal p.labelZh),
    (py "count", .int ids.length), (py "percentage", percentage ids.length st.totalEntries),
    (py "physical_entry_count", .int ids.length),
    (py "occurrence_count", .int (occurrenceCount st ids)), (py "pattern_ids", texts [patternId]),
    (py "evidence_entry_ids", entryIds ids),
    (py "detail_en", literal p.detailEn), (py "detail_zh", literal p.detailZh)]

/-- The entries nobody has claimed. -/
def unclaimedIds (claimed : List ℕ) : List ℕ :=
  ((Dict.keys (entryById st)).filter fun id => !claimed.contains id).insertionSort (· ≤ ·)

/-- The entries nobody has claimed by family, the families in order. -/
def unclaimedByFamily (claimed : List ℕ) : List (PyStr × List ℕ) :=
  let family := fun id =>
    ((Dict.get? (entryById st) id).bind (·.familyId)).getD (py "other")
  (Dict.groupBy family (unclaimedIds st claimed)).insertionSort fun a b => a.1 ≤ b.1

/-- The findings appended for the entries nobody has claimed. -/
def appendedFindings (claimed : List ℕ) : Except PyError (List Json.Fields) := do
  let families := unclaimedByFamily st claimed
  let recovered ← (families.filterMap fun (family, ids) =>
    (presentationOf family).map fun p => (family, p, ids)).mapM fun (family, p, ids) =>
      appendedFinding env st (py "recovered-" ++ family) p ids
  let remaining := (families.filter fun f => (presentationOf f.1).isNone).flatMap (·.2)
  if remaining = [] then return recovered
  else
    let other ← appendedFinding env st (py "other-observed-log-activity") otherActivity remaining
    return recovered ++ [other]

/-- `result.setdefault("secondary_finds", []).append(…)` for each of the appended findings. -/
def appendUnclaimed (result : Json.Fields) (claimed : List ℕ) :
    Except (Failure Json.Fields) Json.Fields :=
  match appendedFindings env st claimed with
  | .error e => .error (e, result)
  | .ok [] => .ok result
  | .ok appended =>
    match result.getD (py "secondary_finds") (.arr []) with
    | .arr items =>
      .ok (Dict.set result (py "secondary_finds") (.arr (items ++ appended.map .obj)))
    | _ => .error (.attributeError, result)

/-- `_reconcile_entry_grouped_result`. -/
def reconcileEntryGrouped (result : Json.Fields) : Except (Failure Json.Fields) Json.Fields := do
  let (result, claimed) ← reconcileGroup env st result [] (py "key_finds")
  let (result, claimed) ← reconcileGroup env st result claimed (py "secondary_finds")
  let result ← appendUnclaimed env st result claimed
  return Dict.set result (py "total_entries") (.int st.totalEntries)

end Reconcile

end Triage
