import NocReport.Foundation.Double
import NocReport.Triage.LogEntries

set_option relaxedAutoImplicit false
set_option autoImplicit false

/-!
# The statistics of a log

The facts `preprocess_log` counts (`sandbox/preprocessing.py`): one pass over the entries
tallies levels, endpoints, patterns and the rest, and keeps a manifest with the identity of each
entry; the patterns are then ranked and listed, the least frequent ones together as `other`.

## Main definitions

* `Triage.Entry`, `Triage.Pattern`, `Triage.Family` — the items of the three catalogues.
* `Triage.tallyEntry` — what one entry adds.
* `Triage.preprocessLog` — the statistics of a log.
* `Triage.Statistics.WellFormed` — what reconciliation relies on.

## Main results

* `Triage.tallyEntry_sound` — one entry keeps the books balanced.
* `Triage.preprocessLog_wellFormed` — the statistics of every log are well-formed.
-/

namespace Dict

variable {κ α : Type} [DecidableEq κ]

/-- `d[k]` for a key that may be missing. -/
def getD (d : Dict κ α) (k : κ) (default : α) : α := (get? d k).getD default

/-- `d[k].append(v)` of a `defaultdict(list)`. -/
def push (d : Dict κ (List α)) (k : κ) (v : α) : Dict κ (List α) := set d k (getD d k [] ++ [v])

/-- The values, looked up by their keys. -/
lemma map_getD_keys {d : Dict κ α} (h : (keys d).Nodup) (default : α) :
    (keys d).map (fun k => getD d k default) = d.map (·.2) := by
  induction d with
  | nil => rfl
  | cons p d ih =>
    obtain ⟨k, v⟩ := p
    obtain ⟨hk, hd⟩ := List.nodup_cons.mp h
    have htail : (keys d).map (fun i => getD ((k, v) :: d) i default) =
        (keys d).map fun i => getD d i default := by
      refine List.map_congr_left fun i hi => ?_
      have hne : k ≠ i := by
        rintro rfl
        exact hk hi
      simp [getD, get?_cons, hne]
    show getD ((k, v) :: d) k default :: (keys d).map _ = v :: d.map _
    rw [htail, ih hd]
    simp [getD, get?_cons]

end Dict

namespace Triage

/-! ## Counters -/

/-- `collections.Counter`. -/
abbrev Counter := Dict PyStr ℕ

namespace Counter

/-- `counter[k] += 1`. -/
def add (c : Counter) (k : PyStr) : Counter := Dict.set c k (Dict.getD c k 0 + 1)

/-- `counter[k] += 1` for each of some keys. -/
def addAll (c : Counter) (ks : List PyStr) : Counter := ks.foldl add c

/-- `sum(counter.values())`. -/
def total (c : Counter) : ℕ := (c.map (·.2)).sum

/-- `counter.most_common(n)`: by falling count, equal ones in the order of insertion. -/
def mostCommon (n : ℕ) (c : Counter) : Counter :=
  (c.insertionSort fun a b => b.2 ≤ a.2).take n

lemma total_add (c : Counter) (k : PyStr) : (c.add k).total = c.total + 1 := by
  induction c with
  | nil => rfl
  | cons p c ih =>
    obtain ⟨k', n⟩ := p
    by_cases hk : k' = k
    · simp [add, total, Dict.set, Dict.getD, Dict.get?_cons, hk]
      omega
    · simp only [add, total, Dict.set, Dict.getD, Dict.get?_cons, if_neg hk, List.map_cons,
        List.sum_cons] at ih ⊢
      omega

end Counter

/-! ## The catalogues -/

/-- An item of the entry manifest. -/
structure Entry where
  id : ℕ
  level : Option PyStr
  text : PyStr
  patternId : PyStr
  familyId : Option PyStr
  traceId : Option PyStr
  deriving DecidableEq, Repr

/-- An item of the pattern manifest. -/
structure Pattern where
  id : PyStr
  template : PyStr
  count : ℕ
  samples : List PyStr
  familyId : Option PyStr
  familyLabel : Option PyStr
  deriving DecidableEq, Repr

/-- `item.get("family_id", "template:" + item["id"])`. -/
def Pattern.family (p : Pattern) : PyStr := p.familyId.getD (py "template:" ++ p.id)

/-- `item.get("family_label", item["template"])`. -/
def Pattern.label (p : Pattern) : PyStr := p.familyLabel.getD p.template

/-- A family of patterns. -/
structure Family where
  id : PyStr
  label : PyStr
  patternIds : List PyStr
  count : ℕ
  deriving DecidableEq, Repr

/-- A representative entry. -/
structure Representative where
  id : ℕ
  level : Option PyStr
  text : PyStr
  deriving DecidableEq, Repr

/-- What `preprocess_log` returns. -/
structure Statistics where
  totalEntries : ℕ
  levelCounts : Counter
  errorCount : ℕ
  exceptionCount : ℕ
  exceptionCounts : Counter
  endpointCounts : Counter
  httpStatusCounts : Counter
  traceCounts : Counter
  userIdCounts : Counter
  recordIdCounts : Counter
  representativeEntries : List Representative
  entryManifest : List Entry
  timestampStart : Option PyStr
  timestampEnd : Option PyStr
  durationSeconds : Option ℚ
  patternManifest : List Pattern
  patternFamilies : List Family

/-! ## One pass over the entries -/

/-- What has been counted so far. -/
structure Tally where
  levels : Counter
  endpoints : Counter
  traces : Counter
  exceptions : Counter
  httpStatuses : Counter
  userIds : Counter
  recordIds : Counter
  timestamps : List Datetime
  patternCounts : Counter
  patternTemplates : Dict PyStr PyStr
  patternSamples : Dict PyStr (List PyStr)
  patternFamilies : Dict PyStr (PyStr × PyStr)
  representativeEntries : List Representative
  entryManifest : List Entry

/-- Nothing counted yet. -/
def Tally.empty : Tally := ⟨[], [], [], [], [], [], [], [], [], [], [], [], [], []⟩

section Tally

variable (env : Env)

/-- `str(v)` of a text or an integer. -/
def textOrInt (v : Json) : Option PyStr :=
  match v with
  | .str s => some s
  | .int _ | .bool _ => some (env.str v)
  | _ => none

/-- What the object an entry was written as adds. -/
def tallyFields (t : Tally) (fields : Json.Fields) : Tally :=
  let get := fun key => fields.get (py key)
  let parsed := ["timestamp", "time", "ts"].findSome? fun key => match get key with
    | .str s => parseTimestamp env (some s)
    | _ => none
  let endpoint := match (get "path").or (get "endpoint") with
    | .str s => [s]
    | _ => []
  let trace := match (get "trace_id").or (get "traceId") with
    | .str s => [s]
    | _ => []
  let status := match (((get "status_code").or (get "statusCode")).or (get "http_status")).or
      (get "status") with
    | .int i => if 100 ≤ i ∧ i ≤ 599 then [env.str (.int i)] else []
    | _ => []
  let userId := textOrInt env (((get "user_id").or (get "userId")).or (get "username"))
  let recordId := textOrInt env ((get "record_id").or (get "recordId"))
  { t with
    timestamps := t.timestamps ++ parsed.toList
    endpoints := t.endpoints.addAll endpoint
    traces := t.traces.addAll trace
    httpStatuses := t.httpStatuses.addAll status
    userIds := t.userIds.addAll userId.toList
    recordIds := t.recordIds.addAll recordId.toList }

/-- What the line of an entry adds. -/
def tallyLine (t : Tally) (line : PyStr) : Except PyError Tally := do
  let endpoint := ((endpointRegex).search env.isWord line).map Regex.Match.group
  let statuses := ((httpStatusRegex env).findAll env.isWord line).map Regex.Match.group
  let valid ← statuses.filterMapM fun status => do
    let code ← env.int (.str status)
    return if 100 ≤ code ∧ code ≤ 599 then some status else none
  let traces := ((traceRegex env).findAll env.isWord line).map Regex.Match.group
  let exceptions := ((exceptionRegex env).findAll env.isWord line).map Regex.Match.text
  return { t with
    endpoints := t.endpoints.addAll endpoint.toList
    httpStatuses := t.httpStatuses.addAll valid
    traces := t.traces.addAll traces
    exceptions := t.exceptions.addAll exceptions
    timestamps := t.timestamps ++ (parseTimestamp env (timestamp env line)).toList }

/-- The levels of errors. -/
def errorLevels : List PyStr := [py "ERROR", py "CRITICAL", py "FATAL"]

/-- One turn of the loop of `preprocess_log`. -/
def tallyEntry (maxSamples : ℕ) (t : Tally) (item : ℕ × LogEntry) : Except PyError Tally := do
  let ⟨entryId, line, structured⟩ := item
  let lvl := level env line structured
  let t := { t with levels := t.levels.addAll ((lvl.filter (· ≠ [])).toList) }
  let t := match structured with
    | some (p :: ps) => tallyFields env t (p :: ps)
    | _ => t
  let t ← tallyLine env t line
  let tmpl := template env line structured
  let pid ← patternId env tmpl
  let familySource := (whitespaceRegex.sub env.isWord (py " ") line).strip.take 2000
  let family ← causeFamily env familySource
  let samples := Dict.getD t.patternSamples pid []
  let isError := match lvl with
    | some l => errorLevels.contains l
    | none => false
  let taken := t.representativeEntries.length
  let representative := decide (taken < maxSamples) && (isError || decide (taken < 8))
  return { t with
    patternCounts := t.patternCounts.add pid
    patternTemplates := Dict.set t.patternTemplates pid tmpl
    patternFamilies := Dict.set t.patternFamilies pid family
    entryManifest := t.entryManifest ++ [{
      id := entryId, level := lvl, text := line.take 1200, patternId := pid
      familyId := some family.1, traceId := traceId env line structured }]
    patternSamples := Dict.set t.patternSamples pid
      (if samples.length < 2 then samples ++ [line.take 500] else samples)
    representativeEntries := t.representativeEntries ++
      if representative then [⟨entryId, lvl, line.take 700⟩] else [] }

/-! ## The catalogues of a tally -/

/-- `item < best`; a time with an offset does not compare with one without. -/
def Datetime.lt (a b : Datetime) : Except PyError Bool :=
  if a.offset.isSome = b.offset.isSome then return decide (a.micros < b.micros)
  else throw .typeError

/-- `min(timestamps)` and `max(timestamps)`. -/
def bestTimestamp (better : Datetime → Datetime → Except PyError Bool) :
    List Datetime → Except PyError (Option Datetime)
  | [] => return none
  | t :: ts => do
    let best ← ts.foldlM (fun best t => do return if ← better t best then t else best) t
    return some best

/-- The pattern ids by falling count. -/
def Tally.ranked (t : Tally) : List PyStr :=
  (Dict.keys t.patternCounts).insertionSort fun a b =>
    Dict.getD t.patternCounts b 0 < Dict.getD t.patternCounts a 0 ∨
      (Dict.getD t.patternCounts a 0 = Dict.getD t.patternCounts b 0 ∧ a ≤ b)

/-- The catalogue item of a pattern. -/
def Tally.pattern (t : Tally) (pid : PyStr) : Pattern :=
  let family := Dict.getD t.patternFamilies pid ([], [])
  { id := pid
    template := Dict.getD t.patternTemplates pid []
    count := Dict.getD t.patternCounts pid 0
    samples := Dict.getD t.patternSamples pid []
    familyId := some family.1
    familyLabel := some family.2 }

/-- The item for the patterns that are not listed. -/
def otherPattern (count : ℕ) : Pattern where
  id := py "other"
  template := py "Other deterministic log patterns"
  count := count
  samples := []
  familyId := some (py "other")
  familyLabel := some (py "Other deterministic log patterns")

/-- The pattern manifest. -/
def Tally.patterns (t : Tally) (maxPatterns : ℕ) : List Pattern :=
  let omitted := ((t.ranked.drop maxPatterns).map fun pid => Dict.getD t.patternCounts pid 0).sum
  (t.ranked.take maxPatterns).map t.pattern ++ if omitted = 0 then [] else [otherPattern omitted]

/-- The families of all patterns. -/
def Tally.families (t : Tally) : List Family :=
  let keys := Dict.keys t.patternCounts
  let familyOf := fun pid => Dict.getD t.patternFamilies pid ([], [])
  let members : Dict PyStr (List PyStr) :=
    keys.foldl (fun d pid => Dict.push d (familyOf pid).1 pid) []
  let labels : Dict PyStr PyStr := Dict.ofList (keys.map familyOf)
  let families := members.map fun (family, ids) =>
    { id := family, label := Dict.getD labels family [], patternIds := ids
      count := (ids.map fun pid => Dict.getD t.patternCounts pid 0).sum }
  families.insertionSort fun a b => b.count < a.count ∨ (a.count = b.count ∧ a.id ≤ b.id)

/-- `preprocess_log`. -/
def preprocessLogWith (maxPatterns maxSamples : ℕ) (logText : PyStr) :
    Except PyError Statistics := do
  let items ← entries env logText
  let t ← ((List.range items.length).zip items).foldlM (tallyEntry env maxSamples) .empty
  let first ← bestTimestamp (fun t best => t.lt best) t.timestamps
  let last ← bestTimestamp (fun t best => best.lt t) t.timestamps
  return {
    totalEntries := items.length
    levelCounts := t.levels.insertionSort fun a b => a.1 ≤ b.1
    errorCount := (errorLevels.map fun l => Dict.getD t.levels l 0).sum
    exceptionCount := t.exceptions.total
    exceptionCounts := t.exceptions.mostCommon 20
    endpointCounts := t.endpoints.mostCommon 20
    httpStatusCounts := t.httpStatuses.mostCommon 20
    traceCounts := t.traces.mostCommon 20
    userIdCounts := t.userIds.mostCommon 20
    recordIdCounts := t.recordIds.mostCommon 20
    representativeEntries := t.representativeEntries
    entryManifest := t.entryManifest
    timestampStart := first.map env.isoFormat
    timestampEnd := last.map env.isoFormat
    durationSeconds := match first, last with
      | some first, some last =>
        some (Double.roundTo 3 (Double.div ((last.micros - first.micros : ℤ) : ℚ) 1000000))
      | _, _ => none
    patternManifest := t.patterns maxPatterns
    patternFamilies := t.families }

/-- `preprocess_log` with its defaults. -/
def preprocessLog (logText : PyStr) : Except PyError Statistics :=
  preprocessLogWith env 80 40 logText

end Tally

/-! ## The books balance -/

/-- What reconciliation relies on. -/
structure Statistics.WellFormed (st : Statistics) : Prop where
  /-- the entries are numbered from zero -/
  ids : st.entryManifest.map (·.id) = List.range st.totalEntries
  /-- every entry has a family -/
  entryFamily : ∀ e ∈ st.entryManifest, ∃ family, e.familyId = some family ∧ family ≠ []
  patternIds : (st.patternManifest.map (·.id)).Nodup
  /-- every pattern has a family -/
  patternFamily : ∀ p ∈ st.patternManifest, ∃ family, p.familyId = some family ∧ family ≠ []
  /-- no pattern is named like the marker of unquantified findings -/
  patternNamed : ∀ p ∈ st.patternManifest, p.id ≠ py "unquantified"
  /-- the counts of the patterns add up to the entries -/
  total : (st.patternManifest.map (·.count)).sum = st.totalEntries

/-- What holds after `n` entries. -/
structure Tally.Sound (t : Tally) (n : ℕ) : Prop where
  ids : t.entryManifest.map (·.id) = List.range n
  entryFamily : ∀ e ∈ t.entryManifest, ∃ family, e.familyId = some family ∧ family ≠ []
  keys : (Dict.keys t.patternCounts).Nodup
  named : ∀ pid ∈ Dict.keys t.patternCounts, ∃ digest, pid = py "p-" ++ digest
  family : ∀ pid ∈ Dict.keys t.patternCounts, (Dict.getD t.patternFamilies pid ([], [])).1 ≠ []
  total : t.patternCounts.total = n

lemma Tally.sound_empty : Tally.empty.Sound 0 where
  ids := rfl
  entryFamily := by intro e he; cases he
  keys := List.nodup_nil
  named := by intro pid hp; cases hp
  family := by intro pid hp; cases hp
  total := rfl

section Sound

variable {env : Env} {t t' : Tally}

lemma tallyFields_frame (fields : Json.Fields) :
    (tallyFields env t fields).patternCounts = t.patternCounts ∧
      (tallyFields env t fields).patternFamilies = t.patternFamilies ∧
      (tallyFields env t fields).entryManifest = t.entryManifest :=
  ⟨rfl, rfl, rfl⟩

lemma tallyLine_frame {line : PyStr} (h : tallyLine env t line = .ok t') :
    t'.patternCounts = t.patternCounts ∧ t'.patternFamilies = t.patternFamilies ∧
      t'.entryManifest = t.entryManifest := by
  obtain ⟨valid, -, h⟩ := Except.bind_eq_ok.mp h
  rw [Except.pure_eq_ok] at h
  rw [← h]
  exact ⟨rfl, rfl, rfl⟩

lemma patternId_eq_ok {text pid : PyStr} (h : patternId env text = .ok pid) :
    ∃ digest, pid = py "p-" ++ digest := by
  obtain ⟨digest, -, h⟩ := Except.bind_eq_ok.mp h
  rw [Except.pure_eq_ok] at h
  exact ⟨digest, h.symm⟩

/-- The pattern id of an entry. -/
def linePattern (env : Env) (entry : LogEntry) : Except PyError PyStr :=
  patternId env (template env entry.1 entry.2)

/-- The cause family of an entry and its label. They come from the line, not from the template. -/
def lineFamily (env : Env) (entry : LogEntry) : Except PyError (PyStr × PyStr) :=
  causeFamily env ((whitespaceRegex.sub env.isWord (py " ") entry.1).strip.take 2000)

/-- What a turn of the loop does to the patterns and the manifest: one more of the pattern of the
entry, which now has the family of the entry, and one more item, of that pattern and family. -/
lemma tallyEntry_frame {maxSamples n : ℕ} {entry : LogEntry}
    (h : tallyEntry env maxSamples t (n, entry) = .ok t') :
    ∃ (e : Entry) (family : PyStr × PyStr), e.id = n ∧ e.text = entry.1.take 1200 ∧
      linePattern env entry = .ok e.patternId ∧ lineFamily env entry = .ok family ∧
      e.familyId = some family.1 ∧
      t'.entryManifest = t.entryManifest ++ [e] ∧
      t'.patternCounts = t.patternCounts.add e.patternId ∧
      t'.patternFamilies = Dict.set t.patternFamilies e.patternId family := by
  obtain ⟨line, structured⟩ := entry
  simp only [tallyEntry] at h
  obtain ⟨t₁, ht₁, h⟩ := Except.bind_eq_ok.mp h
  obtain ⟨pid, hpid, h⟩ := Except.bind_eq_ok.mp h
  obtain ⟨family, hfamily, h⟩ := Except.bind_eq_ok.mp h
  rw [Except.pure_eq_ok] at h
  subst h
  obtain ⟨hcounts, hfamilies, hmanifest⟩ := tallyLine_frame ht₁
  let e : Entry := ⟨n, level env line structured, line.take 1200, pid, some family.1,
    traceId env line structured⟩
  refine ⟨e, family, rfl, rfl, hpid, hfamily, rfl, ?_, ?_, ?_⟩
  · dsimp only
    rw [hmanifest]
    split <;> rfl
  · dsimp only
    rw [hcounts]
    split <;> rfl
  · dsimp only
    rw [hfamilies]
    split <;> rfl

/-- One entry keeps the books balanced. -/
lemma tallyEntry_sound {maxSamples n : ℕ} {entry : LogEntry} (ht : t.Sound n)
    (h : tallyEntry env maxSamples t (n, entry) = .ok t') : t'.Sound (n + 1) := by
  obtain ⟨e, family, hid, -, hpattern, hlabel, hfamily, hmanifest, hcounts, hfamilies⟩ :=
    tallyEntry_frame h
  have hne : family.1 ≠ [] := causeFamily_ne_nil env hlabel
  refine ⟨?_, ?_, ?_, ?_, ?_, ?_⟩
  · rw [hmanifest, List.map_append, ht.ids, List.range_succ, List.map_singleton, hid]
  · intro e' he'
    rw [hmanifest, List.mem_append, List.mem_singleton] at he'
    rcases he' with he' | rfl
    · exact ht.entryFamily e' he'
    · exact ⟨family.1, hfamily, hne⟩
  · rw [hcounts]
    exact Dict.nodup_keys_set ht.keys _ _
  · intro pid hp
    rw [hcounts] at hp
    rcases (Dict.mem_keys_set _ _ _ _).mp hp with rfl | hp
    · exact patternId_eq_ok hpattern
    · exact ht.named pid hp
  · intro pid hp
    rw [hcounts] at hp
    rw [hfamilies, Dict.getD, Dict.get?_set]
    split
    · exact hne
    · next hother =>
      exact ht.family pid (((Dict.mem_keys_set _ _ _ _).mp hp).resolve_left hother)
  · rw [hcounts, Counter.total_add, ht.total]

/-- After the loop the books are balanced. -/
lemma tallyEntries_sound {maxSamples : ℕ} {items : List LogEntry} {n : ℕ} (ht : t.Sound n)
    (h : ((List.range' n items.length).zip items).foldlM (tallyEntry env maxSamples) t = .ok t') :
    t'.Sound (n + items.length) := by
  induction items generalizing t n with
  | nil =>
    rw [List.zip_nil_right, List.foldlM_nil, Except.pure_eq_ok] at h
    exact h ▸ ht
  | cons item items ih =>
    rw [List.length_cons, List.range'_succ, List.zip_cons_cons, List.foldlM_cons] at h
    obtain ⟨t₁, ht₁, h⟩ := Except.bind_eq_ok.mp h
    have hn : n + (item :: items).length = n + 1 + items.length := by
      rw [List.length_cons]
      omega
    rw [hn]
    exact ih (tallyEntry_sound ht ht₁) h

end Sound

/-! ## The catalogues of balanced books -/

section Catalogue

variable {t : Tally} {n : ℕ}

lemma Tally.ranked_perm (t : Tally) : t.ranked.Perm (Dict.keys t.patternCounts) :=
  List.perm_insertionSort _ _

lemma Tally.map_pattern_id (t : Tally) (pids : List PyStr) :
    (pids.map t.pattern).map (·.id) = pids := by
  rw [List.map_map]
  exact List.map_id _

/-- The ids of the manifest are those of the most frequent patterns, and `other`. -/
lemma Tally.patterns_ids (t : Tally) (maxPatterns : ℕ) :
    (t.patterns maxPatterns).map (·.id) = t.ranked.take maxPatterns ∨
      (t.patterns maxPatterns).map (·.id) = t.ranked.take maxPatterns ++ [py "other"] := by
  unfold Tally.patterns
  rw [List.map_append, t.map_pattern_id]
  split
  · exact .inl (List.append_nil _)
  · exact .inr rfl

lemma Tally.Sound.mem_ranked (ht : t.Sound n) {pid : PyStr} (h : pid ∈ t.ranked) :
    ∃ digest, pid = py "p-" ++ digest :=
  ht.named pid (t.ranked_perm.mem_iff.mp h)

lemma Tally.Sound.nodup_ids (ht : t.Sound n) (maxPatterns : ℕ) :
    ((t.patterns maxPatterns).map (·.id)).Nodup := by
  have hranked : (t.ranked.take maxPatterns).Nodup :=
    (t.ranked_perm.nodup_iff.mpr ht.keys).sublist (List.take_sublist _ _)
  rcases t.patterns_ids maxPatterns with h | h <;> rw [h]
  · exact hranked
  · refine List.nodup_append.mpr ⟨hranked, List.nodup_singleton _, ?_⟩
    rintro a ha b hb rfl
    obtain ⟨digest, rfl⟩ := ht.mem_ranked (List.mem_of_mem_take ha)
    rw [List.mem_singleton] at hb
    cases hb

lemma Tally.Sound.id_ne_unquantified (ht : t.Sound n) {maxPatterns : ℕ} {p : Pattern}
    (hp : p ∈ t.patterns maxPatterns) : p.id ≠ py "unquantified" := by
  have hid : p.id ∈ (t.patterns maxPatterns).map (·.id) := List.mem_map_of_mem hp
  intro h
  rw [h] at hid
  rcases t.patterns_ids maxPatterns with hids | hids <;> rw [hids] at hid
  · obtain ⟨digest, hd⟩ := ht.mem_ranked (List.mem_of_mem_take hid)
    cases hd
  · rcases List.mem_append.mp hid with hid | hid
    · obtain ⟨digest, hd⟩ := ht.mem_ranked (List.mem_of_mem_take hid)
      cases hd
    · rw [List.mem_singleton] at hid
      cases hid

lemma Tally.Sound.patterns_family (ht : t.Sound n) {maxPatterns : ℕ} {p : Pattern}
    (hp : p ∈ t.patterns maxPatterns) : ∃ family, p.familyId = some family ∧ family ≠ [] := by
  unfold Tally.patterns at hp
  rcases List.mem_append.mp hp with hp | hp
  · obtain ⟨pid, hpid, rfl⟩ := List.mem_map.mp hp
    exact ⟨_, rfl, ht.family pid (t.ranked_perm.mem_iff.mp (List.mem_of_mem_take hpid))⟩
  · split at hp
    · cases hp
    · rw [List.mem_singleton] at hp
      exact ⟨py "other", by rw [hp]; rfl, by decide⟩

/-- The counts of the manifest are those of all patterns. -/
lemma Tally.Sound.patterns_total (ht : t.Sound n) (maxPatterns : ℕ) :
    ((t.patterns maxPatterns).map (·.count)).sum = n := by
  have hcounts : ∀ pids : List PyStr, (pids.map t.pattern).map (·.count) =
      pids.map fun pid => Dict.getD t.patternCounts pid 0 := by
    intro pids
    rw [List.map_map]
    rfl
  have hother : ∀ k, ((if k = 0 then [] else [otherPattern k]).map (·.count)).sum = k := by
    intro k
    split
    · next h => rw [h]; rfl
    · simp [otherPattern]
  have hall : (t.ranked.map fun pid => Dict.getD t.patternCounts pid 0).sum = n := by
    rw [(t.ranked_perm.map _).sum_eq, Dict.map_getD_keys ht.keys]
    exact ht.total
  unfold Tally.patterns
  rw [List.map_append, List.sum_append, hcounts, hother, ← List.sum_append, ← List.map_append,
    List.take_append_drop, hall]

end Catalogue

/-- **The statistics of every log are well-formed.** -/
theorem preprocessLogWith_wellFormed {env : Env} {maxPatterns maxSamples : ℕ} {logText : PyStr}
    {st : Statistics} (h : preprocessLogWith env maxPatterns maxSamples logText = .ok st) :
    st.WellFormed := by
  obtain ⟨items, -, h⟩ := Except.bind_eq_ok.mp h
  obtain ⟨t, ht, h⟩ := Except.bind_eq_ok.mp h
  obtain ⟨first, -, h⟩ := Except.bind_eq_ok.mp h
  obtain ⟨last, -, h⟩ := Except.bind_eq_ok.mp h
  rw [Except.pure_eq_ok] at h
  subst h
  rw [List.range_eq_range'] at ht
  have hsound := tallyEntries_sound Tally.sound_empty ht
  rw [Nat.zero_add] at hsound
  exact {
    ids := hsound.ids
    entryFamily := hsound.entryFamily
    patternIds := hsound.nodup_ids maxPatterns
    patternFamily := fun p hp => hsound.patterns_family hp
    patternNamed := fun p hp => hsound.id_ne_unquantified hp
    total := hsound.patterns_total maxPatterns }

/-- The texts of the manifest are the starts of the lines. -/
lemma preprocessLogWith_texts {env : Env} {maxPatterns maxSamples : ℕ} {logText : PyStr}
    {st : Statistics} (h : preprocessLogWith env maxPatterns maxSamples logText = .ok st) :
    ∃ items, entries env logText = .ok items ∧
      st.entryManifest.map (·.text) = items.map fun entry => entry.1.take 1200 := by
  obtain ⟨items, hitems, h⟩ := Except.bind_eq_ok.mp h
  obtain ⟨t, ht, h⟩ := Except.bind_eq_ok.mp h
  obtain ⟨first, -, h⟩ := Except.bind_eq_ok.mp h
  obtain ⟨last, -, h⟩ := Except.bind_eq_ok.mp h
  rw [Except.pure_eq_ok] at h
  subst h
  have htexts : ∀ (numbered : List (ℕ × LogEntry)) (t t' : Tally),
      numbered.foldlM (tallyEntry env maxSamples) t = .ok t' →
      t'.entryManifest.map (·.text) =
        t.entryManifest.map (·.text) ++ numbered.map fun item => item.2.1.take 1200 := by
    intro numbered
    induction numbered with
    | nil =>
      intro t t' h
      rw [List.foldlM_nil, Except.pure_eq_ok] at h
      simp [h]
    | cons item numbered ih =>
      intro t t' h
      rw [List.foldlM_cons] at h
      obtain ⟨t₁, ht₁, h⟩ := Except.bind_eq_ok.mp h
      obtain ⟨e, family, -, htext, -, -, -, hmanifest, -, -⟩ := tallyEntry_frame ht₁
      simp [ih t₁ t' h, hmanifest, htext]
  refine ⟨items, hitems, ?_⟩
  have hzip : ((List.range items.length).zip items).map (fun item => item.2.1.take 1200) =
      items.map fun entry => entry.1.take 1200 := by
    have hsnd : ((List.range items.length).zip items).map Prod.snd = items :=
      List.map_snd_zip (by simp)
    conv_rhs => rw [← hsnd, List.map_map]
    rfl
  rw [htexts _ _ _ ht, hzip]
  rfl

theorem preprocessLog_wellFormed {env : Env} {logText : PyStr} {st : Statistics}
    (h : preprocessLog env logText = .ok st) : st.WellFormed :=
  preprocessLogWith_wellFormed h

end Triage
