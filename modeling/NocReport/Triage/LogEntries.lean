import Mathlib.Data.List.Sort
import NocReport.Foundation.Python
import NocReport.Foundation.Regex
import NocReport.Foundation.Strip

set_option relaxedAutoImplicit false
set_option autoImplicit false

/-!
# Log entries and their deterministic identities

How an uploaded log is cut into entries and what is read off each of them
(`sandbox/preprocessing.py`): its level, its template with the request-specific values replaced,
the pattern named after the template, the cause family and the correlation identity. The
Unicode tables, the hash and the JSON and date parsers of the standard library are parameters.

## Main definitions

* `Triage.Env` — the parameters.
* `Triage.entries` — the entries of a log.
* `Triage.level`, `Triage.template`, `Triage.patternId`, `Triage.causeFamily`, `Triage.traceId`
  — what is read off an entry.

## Main results

* `Triage.causeFamily_ne_nil` — every entry has a family.
-/

namespace Triage

/-- A `datetime`: its time in microseconds, in UTC when it has an offset, and the offset. -/
structure Datetime where
  micros : ℤ
  offset : Option ℤ
  deriving DecidableEq, Repr

/-- The parts of the standard library the preprocessing uses. -/
structure Env extends PyRuntime where
  /-- the hexadecimal SHA-256 digest of the UTF-8 encoding of a text -/
  sha256Hex : PyStr → PyStr
  /-- `json.loads`; a text that is not JSON raises `JSONDecodeError` -/
  jsonLoads : PyStr → Except PyError Json
  /-- `json.dumps(v, ensure_ascii=False, separators=(",", ":"))` -/
  jsonDumps : Json → PyStr
  casefold : PyStr → PyStr
  upper : PyStr → PyStr
  /-- `\w` -/
  isWord : ℕ → Bool
  /-- `\d` -/
  isDigit : ℕ → Bool
  /-- the code points that match a code point under `re.IGNORECASE` -/
  caseVariants : ℕ → List ℕ
  /-- `datetime.fromisoformat`; `none` for a `ValueError` -/
  fromIsoFormat : PyStr → Option Datetime
  isoFormat : Datetime → PyStr
  /-- the order in which a set of the texts of a list is iterated -/
  setOrder : List PyStr → List PyStr
  setOrder_perm : ∀ texts, (setOrder texts).Perm texts.eraseDups

/-- A set may be iterated in the order in which its texts first occur. -/
lemma firstOccurrences_perm (texts : List PyStr) : texts.eraseDups.Perm texts.eraseDups := .refl _

/-- `JSONDecodeError`. -/
def jsonDecodeError : PyError := .custom (py "JSONDecodeError") []

/-- `needle in text`. -/
def hasText (needle text : PyStr) : Bool := text.tails.any fun t => needle.isPrefixOf t

/-- `separator.join(texts)`. -/
def joinText (separator : PyStr) (texts : List PyStr) : PyStr := separator.intercalate texts

/-! ## Entries -/

/-- The line boundaries of `str.splitlines` that are one code point. -/
def isLineBreak (c : ℕ) : Bool :=
  (10 ≤ c && c ≤ 13) || (28 ≤ c && c ≤ 30) || c == 0x85 || c == 0x2028 || c == 0x2029

/-- `str.splitlines`, with the current line so far, reversed. -/
def splitLinesFrom (line : PyStr) : PyStr → List PyStr
  | [] => if line.isEmpty then [] else [line.reverse]
  | 13 :: 10 :: rest => line.reverse :: splitLinesFrom [] rest
  | c :: rest =>
    if isLineBreak c then line.reverse :: splitLinesFrom [] rest
    else splitLinesFrom (c :: line) rest

/-- `str.splitlines`. -/
def splitLines (text : PyStr) : List PyStr := splitLinesFrom [] text

/-- The text is not blank: `text.strip()` is true. -/
def notBlank (text : PyStr) : Bool := !text.strip.isEmpty

/-- A text that starts with a character that is no space is not blank. -/
lemma notBlank_cons {c : ℕ} {rest : PyStr} (hc : PyStr.isSpace c = false) :
    notBlank (c :: rest) = true := by
  have h : PyStr.strip (c :: rest) ≠ [] := PyStr.strip_ne_nil List.mem_cons_self hc
  simpa [notBlank] using h

/-- A log entry: its line, and the object it was written as. -/
abbrev LogEntry := PyStr × Option Json.Fields

section Fields

variable (env : Env)

/-- `json.loads` with `JSONDecodeError` and `TypeError` caught. -/
def tryLoads (text : PyStr) : Except PyError (Option Json) :=
  match env.jsonLoads text with
  | .ok v => return some v
  | .error e => if e = jsonDecodeError ∨ e = .typeError then return none else throw e

/-- `_json_object`. -/
def jsonObject (line : PyStr) : Except PyError (Option Json.Fields) := do
  match ← tryLoads env line with
  | some (.obj fields) => return some fields
  | _ => return none

/-- `_entries`. -/
def entries (logText : PyStr) : Except PyError (List LogEntry) := do
  match ← tryLoads env logText with
  | some (.arr items) =>
    let normalized : List LogEntry := items.map fun item => match item with
      | .obj fields => (env.jsonDumps item, some fields)
      | _ => (env.str item, none)
    return normalized.filter fun entry => notBlank entry.1
  | some (.obj fields) => return [(env.jsonDumps (.obj fields), some fields)]
  | _ =>
    ((splitLines logText).filter notBlank).mapM fun line => do
      return (line, ← jsonObject env line)

/-! ## Expressions -/

/-- A set of code points under `re.IGNORECASE`. -/
def ignoringCase (p : ℕ → Bool) (c : ℕ) : Bool := p c || (env.caseVariants c).any p

/-- A literal under `re.IGNORECASE`. -/
def literalI (s : String) : Regex := .literal (fun c => ignoringCase env (· == c)) s

/-- A literal. -/
def lit (s : String) : Regex := .literal (fun c => (· == c)) s

/-- One of the code points of `s`. -/
def among (s : String) (c : ℕ) : Bool := (py s).contains c

/-- `[A-Za-z]` -/
def isAsciiLetter (c : ℕ) : Bool := (65 ≤ c && c ≤ 90) || (97 ≤ c && c ≤ 122)

/-- `[0-9]` -/
def isAsciiDigit (c : ℕ) : Bool := 48 ≤ c && c ≤ 57

/-- `[0-9a-f]` -/
def isHexDigit (c : ℕ) : Bool := isAsciiDigit c || (97 ≤ c && c ≤ 102)

/-- `\s` -/
def space : Regex := .chars PyStr.isSpace

/-- `\S` -/
def nonSpace : Regex := .chars fun c => !PyStr.isSpace c

/-- `\d` -/
def digit : Regex := .chars env.isDigit

/-- `\d{4}-\d{2}-\d{2}` -/
def isoDate : Regex :=
  .concat [.times 4 (digit env), lit "-", .times 2 (digit env), lit "-", .times 2 (digit env)]

/-- `_TIMESTAMP` -/
def timestampRegex : Regex :=
  .concat [.boundary, .group (.alt
    (.concat [isoDate env, lit "T", .plus nonSpace])
    (.concat [isoDate env, .plus nonSpace]))]

/-- `_LEVEL` -/
def levelRegex : Regex :=
  .concat [.boundary, .group (.oneOf ((["DEBUG", "INFO", "WARN", "WARNING", "ERROR", "CRITICAL",
    "FATAL"]).map (literalI env))), .boundary]

/-- `_ENDPOINT` -/
def endpointRegex : Regex :=
  .concat [.oneOf ((["GET", "POST", "PUT", "PATCH", "DELETE"]).map lit), .plus space,
    .group (.plus (.chars fun c => !(PyStr.isSpace c || among "?" c)))]

/-- `_HTTP_STATUS` -/
def httpStatusRegex : Regex :=
  .concat [.boundary,
    .oneOf ((["status", "status_code", "statusCode", "http_status"]).map (literalI env)),
    .many space, .chars (among "=:"), .many space, .optional (.chars (among "\"'")),
    .group (.times 3 (digit env)), .boundary]

/-- `_TRACE` -/
def traceRegex : Regex :=
  .concat [.boundary,
    .alt (.concat [literalI env "trace", .optional (.chars (among "_-")), literalI env "id"])
      (literalI env "traceId"),
    lit "=",
    .group (.plus (.chars (ignoringCase env fun c =>
      isAsciiLetter c || isAsciiDigit c || among "_-" c)))]

/-- `_EXCEPTION` -/
def exceptionRegex : Regex :=
  .concat [.boundary, .many (.chars fun c => env.isWord c || among "$" c),
    .alt (lit "Error") (lit "Exception"), .boundary]

/-- `_UUID` -/
def uuidRegex : Regex :=
  .concat [.boundary, .times 8 (.chars (ignoringCase env isHexDigit)), lit "-",
    .rep 27 none (.chars (ignoringCase env fun c => isHexDigit c || among "-" c)), .boundary]

/-- `_HEX` -/
def hexRegex : Regex :=
  .concat [.boundary, literalI env "0x", .plus (.chars (ignoringCase env isHexDigit)), .boundary]

/-- `_URL` -/
def urlRegex : Regex :=
  .concat [literalI env "http", .optional (literalI env "s"), lit "://",
    .plus (.chars fun c => !(PyStr.isSpace c || among "])" c))]

/-- `_NUMBER` -/
def numberRegex : Regex :=
  .concat [.notBehind isAsciiLetter, .plus (digit env),
    .optional (.concat [lit ".", .plus (digit env)]), .notAhead (.chars isAsciiLetter)]

/-- `_QUOTED` -/
def quotedRegex : Regex :=
  .concat [.group (.chars (among "'\"")),
    .many (.alt (.concat [lit "\\", .chars (· != 10)])
      (.concat [.notAhead .groupAgain, .chars (· != 10)])),
    .groupAgain]

/-- `_WHITESPACE` -/
def whitespaceRegex : Regex := .plus space

/-- The request identities `_template` replaces. -/
def identityRegex : Regex :=
  let withId := fun s =>
    Regex.concat [literalI env s, .optional (.chars (among "_-")), literalI env "id"]
  .concat [.boundary,
    .oneOf [withId "trace", literalI env "traceId", withId "span", literalI env "spanId",
      withId "request", literalI env "requestId", withId "correlation",
      literalI env "correlationId"],
    .many space, .chars (among "=:"), .many space, .plus nonSpace]

/-! ## What is read off an entry -/

/-- `_timestamp`. -/
def timestamp (value : PyStr) : Option PyStr :=
  ((timestampRegex env).search env.isWord value).map Regex.Match.group

/-- `_parse_timestamp`. -/
def parseTimestamp (value : Option PyStr) : Option Datetime :=
  match value with
  | some (c :: cs) =>
    env.fromIsoFormat ((c :: cs).flatMap fun c => if c = 90 then py "+00:00" else [c])
  | _ => none

/-- The first of the keys whose value is a text or an integer that is not blank, as a text. -/
def firstIdentity (fields : Json.Fields) (keys : List String) : Option PyStr :=
  keys.findSome? fun key => match fields.get (py key) with
    | .str s => if notBlank s then some s.strip else none
    | .int i => some (env.str (.int i)).strip
    | .bool b => some (env.str (.bool b)).strip
    | _ => none

/-- The keys of a correlation identity. -/
def identityKeys : List String :=
  ["trace_id", "traceId", "correlation_id", "correlationId", "request_id", "requestId"]

/-- `_trace_id`. -/
def traceId (line : PyStr) (structured : Option Json.Fields) : Option PyStr :=
  let fields := structured.getD []
  let nested := match fields.get (py "fields") with
    | .obj nested => nested
    | _ => []
  match firstIdentity env fields identityKeys with
  | some identity => some identity
  | none => match firstIdentity env nested identityKeys with
    | some identity => some identity
    | none => ((traceRegex env).search env.isWord line).map Regex.Match.group

/-- `_level`. -/
def level (line : PyStr) (structured : Option Json.Fields) : Option PyStr :=
  let fields := structured.getD []
  let value := match (fields.get (py "level")).or (fields.get (py "severity")) with
    | .str s => some s
    | _ => ((levelRegex env).search env.isWord line).map Regex.Match.group
  value.map fun value =>
    let value := env.upper value
    if value = py "WARNING" then py "WARN" else value

/-- The keys of the message of a structured entry. -/
def messageKeys : List String :=
  ["line", "message", "msg", "error", "exception", "error_message", "detail"]

/-- The message of a structured entry, or its line. -/
def entryMessage (line : PyStr) (structured : Option Json.Fields) : PyStr :=
  let message := messageKeys.findSome? fun key => match (structured.getD []).get (py key) with
    | .str s => if notBlank s then some s else none
    | _ => none
  message.getD line

/-- `_template`. -/
def template (line : PyStr) (structured : Option Json.Fields) : PyStr :=
  let sub := fun (re : Regex) (replacement : String) (value : PyStr) =>
    re.sub env.isWord (py replacement) value
  let value := entryMessage line structured
  let value := sub (urlRegex env) "<url>" value
  let value := sub (uuidRegex env) "<uuid>" value
  let value := sub (hexRegex env) "<hex>" value
  let value := sub quotedRegex "\"<value>\"" value
  let value := sub (timestampRegex env) "<timestamp>" value
  let value := sub (numberRegex env) "<n>" value
  let value := sub (identityRegex env) "trace=<id>" value
  let value := sub (levelRegex env) "<level>" value
  let value := (sub whitespaceRegex " " value).strip.take 300
  if value.isEmpty then py "unclassified log entry" else value

/-- The first twelve digits of the digest of a text; encoding a surrogate raises. -/
def shortDigest (text : PyStr) : Except PyError PyStr :=
  if text.encodable then return (env.sha256Hex text).take 12
  else throw (.valueError (py "surrogates not allowed"))

/-- `_pattern_id`. -/
def patternId (template : PyStr) : Except PyError PyStr := do
  return py "p-" ++ (← shortDigest env template)

/-- The rules of `_cause_family`: the family, the texts it asks for and its label. -/
def familyRules : List (String × List String × String) :=
  [("elasticsearch-timeout", ["elasticsearch", "timeout"], "Elasticsearch timeout"),
    ("elasticsearch-failure", ["elasticsearch"], "Elasticsearch failure"),
    ("ndrp-availability", ["ndrp"], "NDRP availability or response failure"),
    ("clickhouse-sql", ["clickhouse", "sql"], "ClickHouse SQL failure"),
    ("face-compare-timeout", ["facecompare", "timeout"], "Face comparison timeout"),
    ("payment-order-missing", ["payment", "does not exist"], "Payment order lookup failure"),
    ("sms-opted-out", ["optout"], "SMS recipient opted out"),
    ("sms-invalid-destination", ["msisdn", "invalid"], "SMS destination validation failure"),
    ("sms-invalid-destination", ["destination value"], "SMS destination validation failure"),
    ("sms-command-failure", ["sms", "command_not_recognised"], "SMS provider command failure"),
    ("sms-command-failure", ["command_not_recognised"], "SMS provider command failure"),
    ("sms-missing-phone", ["电话号码为空"], "SMS user phone number missing"),
    ("login-account-empty", ["loginservice", "登录用户检查为空"], "Login account validation empty"),
    ("google-login-null", ["googleutil", "null"], "Google login returned null"),
    ("third-party-game-api", ["/thirdapi/fc/login"], "Third-party FC game API failure"),
    ("third-party-game-api", ["/thirdapi/evo/login"], "Third-party EVO game API failure"),
    ("withdrawal-order-status", ["userwithdrawservice", "checkstatus", "uwithdraw"],
      "Withdrawal order status unavailable"),
    ("export-file-missing", ["exporttaskservice", "文件失败"], "Export file operation failure"),
    ("export-file-missing", ["exportservice", "文件不存在"], "Export file operation failure")]

/-- The dependencies a family of exceptions is named after. -/
def dependencies : List String :=
  ["elasticsearch", "clickhouse", "kafka", "redis", "mysql", "postgres", "payment", "sms"]

/-- `_cause_family`: the family and its label. -/
def causeFamily (template : PyStr) : Except PyError (PyStr × PyStr) :=
  let value := env.casefold template
  match familyRules.find? fun rule => rule.2.1.all fun token => hasText (py token) value with
  | some (family, _, label) => return (py family, py label)
  | none =>
    let exceptions :=
      (((exceptionRegex env).findAll env.isWord template).map Regex.Match.text).eraseDups
    let dependency := dependencies.find? fun token => hasText (py token) value
    if exceptions.isEmpty then do
      return (py "template:" ++ (← patternId env template), template.take 120)
    else
      let names := (exceptions.map env.casefold).insertionSort (· ≤ ·)
      return (joinText (py ":") (py (dependency.getD "generic") :: names),
        py "Related " ++ py (dependency.getD "exception") ++ py " failure: " ++
          joinText (py ", ") exceptions)

/-! ## Families are named -/

/-- A joined text starts with the first of the texts. -/
lemma joinText_cons (separator text : PyStr) (texts : List PyStr) :
    ∃ rest, joinText separator (text :: texts) = text ++ rest := by
  cases texts with
  | nil => exact ⟨[], by simp [joinText, List.intercalate]⟩
  | cons t ts =>
    exact ⟨separator ++ joinText separator (t :: ts), by simp [joinText, List.intercalate]⟩

/-- Every entry has a family. -/
lemma causeFamily_ne_nil {text family label : PyStr}
    (h : causeFamily env text = .ok (family, label)) : family ≠ [] := by
  unfold causeFamily at h
  dsimp only at h
  split at h
  · next f required l hrule =>
    have hname : ∀ rule ∈ familyRules, py rule.1 ≠ [] := by decide
    rw [Except.pure_eq_ok] at h
    cases h
    exact hname _ (List.mem_of_find?_eq_some hrule)
  · split at h
    · obtain ⟨id, -, h⟩ := Except.bind_eq_ok.mp h
      rw [Except.pure_eq_ok] at h
      cases h
      exact List.append_ne_nil_of_left_ne_nil (by decide) id
    · rw [Except.pure_eq_ok] at h
      cases h
      obtain ⟨rest, hrest⟩ := joinText_cons (py ":")
        (py ((dependencies.find? fun token => hasText (py token) (env.casefold text)).getD
          "generic")) _
      rw [hrest]
      refine List.append_ne_nil_of_left_ne_nil ?_ rest
      have hname : ∀ token ∈ dependencies, py token ≠ [] := by decide
      cases hd : dependencies.find? fun token => hasText (py token) (env.casefold text) with
      | none => decide
      | some token => exact hname token (List.mem_of_find?_eq_some hd)

end Fields

end Triage
