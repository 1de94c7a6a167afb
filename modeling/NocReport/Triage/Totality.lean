import NocReport.Triage.PatternSplitting

set_option relaxedAutoImplicit false
set_option autoImplicit false

/-!
# When the preprocessing of a log returns

`preprocess_log` raises on a text when `json.loads` raises something other than what `_entries` and
`_json_object` catch, when a text that is hashed has a surrogate, or when times with an offset and
times without one are compared. On every other text it returns.

## Main definitions

* `Triage.Decoded` — what `json.loads` raises on a text is caught.
* `Triage.Hashable` — the texts of an entry that are hashed have an encoding.
* `Triage.Comparable` — times that compare with each other.

## Main results

* `Triage.httpStatusRegex_group` — a status that is found has three digits.
* `Triage.exists_entries_iff`, `Triage.exists_tallyEntry_iff`, `Triage.exists_bestTimestamp_iff` —
  when the parts of the preprocessing return.
* `Triage.preprocessLogWith_returns_iff` — when the whole does.
-/

namespace Triage

section Totality

variable (env : Env)

/-! ## What the log has to satisfy -/

/-- What `json.loads` raises on a text, if anything, is caught. -/
def Decoded (text : PyStr) : Prop :=
  ∀ e, env.jsonLoads text = .error e → e = jsonDecodeError ∨ e = .typeError

/-- The texts of a log that `json.loads` is called on: the log, and its lines when it is neither a
JSON array nor a JSON object. -/
def decodedTexts (logText : PyStr) : List PyStr :=
  logText :: match env.jsonLoads logText with
    | .ok (.arr _) | .ok (.obj _) => []
    | _ => (splitLines logText).filter notBlank

/-- The text the family of an entry comes from. -/
def familySource (entry : LogEntry) : PyStr :=
  (whitespaceRegex.sub env.isWord (py " ") entry.1).strip.take 2000

/-- No rule and no exception gives the text a family: it is named after its digest. -/
def NamedByDigest (text : PyStr) : Prop :=
  (∀ rule ∈ familyRules, ∃ token ∈ rule.2.1, hasText (py token) (env.casefold text) = false) ∧
    (exceptionRegex env).findAll env.isWord text = []

/-- The texts of an entry that are hashed have an encoding. -/
def Hashable (entry : LogEntry) : Prop :=
  (template env entry.1 entry.2).encodable = true ∧
    (NamedByDigest env (familySource env entry) → (familySource env entry).encodable = true)

/-- The time a structured entry gives. -/
def structuredTimestamp (fields : Json.Fields) : Option Datetime :=
  ["timestamp", "time", "ts"].findSome? fun key => match fields.get (py key) with
    | .str s => parseTimestamp env (some s)
    | _ => none

/-- The times of an entry. -/
def entryTimestamps (entry : LogEntry) : List Datetime :=
  (structuredTimestamp env (entry.2.getD [])).toList ++
    (parseTimestamp env (timestamp env entry.1)).toList

/-- All times have an offset, or none has. -/
def Comparable (times : List Datetime) : Prop :=
  ∀ a ∈ times, ∀ b ∈ times, a.offset.isSome = b.offset.isSome

/-- The text is three digits. -/
def ThreeDigits (text : PyStr) : Prop := text.length = 3 ∧ ∀ c ∈ text, env.isDigit c = true

variable {env}

/-! ## The entries -/

lemma exists_tryLoads_iff {text : PyStr} :
    (∃ v, tryLoads env text = .ok v) ↔ Decoded env text := by
  unfold tryLoads Decoded
  cases env.jsonLoads text with
  | ok v => simp [pure, Except.pure]
  | error e =>
    dsimp only
    split
    · next h => simpa [pure, Except.pure] using h
    · next h => simpa [throw, throwThe, MonadExceptOf.throw] using h

/-- `_entries` returns when what `json.loads` raises is caught every time. -/
lemma exists_entries_iff {logText : PyStr} :
    (∃ items, entries env logText = .ok items) ↔
      ∀ text ∈ decodedTexts env logText, Decoded env text := by
  have hline : ∀ line, (∃ entry : LogEntry, (do return (line, ← jsonObject env line)) = .ok entry) ↔
      Decoded env line := by
    intro line
    rw [← exists_tryLoads_iff]
    unfold jsonObject
    cases tryLoads env line with
    | error e => simp [bind, Except.bind]
    | ok v => rcases v with _ | v
              · simp [bind, Except.bind, pure, Except.pure]
              · cases v <;> simp [bind, Except.bind, pure, Except.pure]
  have hlines : (∃ items, ((splitLines logText).filter notBlank).mapM (fun line => do
        return (line, ← jsonObject env line)) = .ok items) ↔
      ∀ text ∈ (splitLines logText).filter notBlank, Decoded env text := by
    constructor
    · rintro ⟨items, h⟩ text htext
      obtain ⟨entry, -, hentry⟩ := Except.exists_of_mapM_eq_ok h htext
      exact (hline text).mp ⟨entry, hentry⟩
    · exact fun h => Except.exists_mapM_eq_ok fun line hmem => (hline line).mpr (h line hmem)
  rw [entries, Except.exists_bind_eq_ok, decodedTexts, List.forall_mem_cons,
    ← @exists_tryLoads_iff env logText]
  unfold tryLoads
  cases env.jsonLoads logText with
  | error e =>
    dsimp only
    split
    · simpa [pure, Except.pure] using hlines
    · simp [throw, throwThe, MonadExceptOf.throw]
  | ok v =>
    cases v with
    | arr items => simp [pure, Except.pure]
    | obj fields => simp [pure, Except.pure]
    | _ => simpa [pure, Except.pure] using hlines

/-! ## An entry -/

/-- A status that is found in a line has three digits. -/
lemma httpStatusRegex_group {line : PyStr} {m : Regex.Match}
    (h : m ∈ (httpStatusRegex env).findAll env.isWord line) : ThreeDigits env m.group := by
  obtain ⟨s, t, ht, rfl⟩ := Regex.exists_of_mem_findAll h
  simp only [httpStatusRegex, Regex.concat, List.foldr_cons, List.foldr_nil] at ht
  -- up to the group
  obtain ⟨s₁, ht⟩ := Regex.exists_of_seq ht
  obtain ⟨s₂, ht⟩ := Regex.exists_of_seq ht
  obtain ⟨s₃, ht⟩ := Regex.exists_of_seq ht
  obtain ⟨s₄, ht⟩ := Regex.exists_of_seq ht
  obtain ⟨s₅, ht⟩ := Regex.exists_of_seq ht
  obtain ⟨s₆, ht⟩ := Regex.exists_of_seq ht
  -- what the group captures is what there is after it
  obtain ⟨s₇, text, hrest, hlen, hdigits, ht⟩ := Regex.exists_of_times ht
  have hcaptured : t.captured = some text := by
    simp only [Regex.run, Regex.upTo_of_rest hrest] at ht
    split at ht
    · cases ht
      rfl
    · cases ht
  simp only [Regex.Match.group, hcaptured, Option.getD_some]
  exact ⟨hlen, hdigits⟩

lemma exists_patternId_iff {text : PyStr} :
    (∃ pid, patternId env text = .ok pid) ↔ text.encodable = true := by
  rw [patternId, Except.exists_bind_eq_ok, shortDigest]
  split
  · next h => simp [h, pure, Except.pure]
  · next h => simp [h, throw, throwThe, MonadExceptOf.throw]

/-- When `_cause_family` returns. -/
lemma exists_causeFamily_iff {text : PyStr} :
    (∃ family, causeFamily env text = .ok family) ↔
      (NamedByDigest env text → text.encodable = true) := by
  have hrules : (familyRules.find? fun rule =>
      rule.2.1.all fun token => hasText (py token) (env.casefold text)) = none ↔
      ∀ rule ∈ familyRules, ∃ token ∈ rule.2.1, hasText (py token) (env.casefold text) = false := by
    simp
  unfold causeFamily NamedByDigest
  rw [← hrules]
  dsimp only
  split
  · next hrule => simp [hrule, pure, Except.pure]
  · next hrule =>
    have hexceptions : (((exceptionRegex env).findAll env.isWord text).map
        Regex.Match.text).eraseDups.isEmpty = true ↔
        (exceptionRegex env).findAll env.isWord text = [] := by
      cases (exceptionRegex env).findAll env.isWord text <;> simp [List.eraseDups_cons]
    split
    · next hempty =>
      rw [Except.exists_bind_eq_ok, ← @exists_patternId_iff env]
      simp [hrule, hexceptions.mp hempty, pure, Except.pure]
    · next hempty =>
      have hne : (exceptionRegex env).findAll env.isWord text ≠ [] := fun h =>
        hempty (hexceptions.mpr h)
      simp [hne, pure, Except.pure]

/-- The statuses of a line are numbers, so its turn returns. -/
lemma exists_tallyLine (hint : ∀ text, ThreeDigits env text → (env.parseInt text).isSome)
    (t : Tally) (line : PyStr) : ∃ t', tallyLine env t line = .ok t' := by
  rw [tallyLine, Except.exists_bind_eq_ok]
  obtain ⟨valid, hvalid⟩ : ∃ valid, ((((httpStatusRegex env).findAll env.isWord line).map
      Regex.Match.group).filterMapM fun status => (do
        let code ← env.int (.str status)
        return if 100 ≤ code ∧ code ≤ 599 then some status else none :
          Except PyError (Option PyStr))) = .ok valid := by
    apply Except.exists_filterMapM_eq_ok
    intro status hstatus
    obtain ⟨m, hm, rfl⟩ := List.mem_map.mp hstatus
    obtain ⟨code, hcode⟩ := Option.isSome_iff_exists.mp (hint _ (httpStatusRegex_group hm))
    simp only [PyRuntime.int, hcode]
    exact ⟨_, rfl⟩
  exact ⟨valid, hvalid, _, rfl⟩

lemma exists_tallyEntry_iff (hint : ∀ text, ThreeDigits env text → (env.parseInt text).isSome)
    {maxSamples : ℕ} {t : Tally} {n : ℕ} {entry : LogEntry} :
    (∃ t', tallyEntry env maxSamples t (n, entry) = .ok t') ↔ Hashable env entry := by
  obtain ⟨line, structured⟩ := entry
  simp only [tallyEntry]
  rw [Except.exists_bind_eq_ok, Hashable, ← exists_patternId_iff, familySource,
    ← exists_causeFamily_iff]
  constructor
  · rintro ⟨t₁, -, t', h⟩
    obtain ⟨pid, hpid, h⟩ := Except.bind_eq_ok.mp h
    obtain ⟨family, hfamily, h⟩ := Except.bind_eq_ok.mp h
    exact ⟨⟨pid, hpid⟩, family, hfamily⟩
  · rintro ⟨⟨pid, hpid⟩, family, hfamily⟩
    obtain ⟨t₁, ht₁⟩ := exists_tallyLine hint _ line
    refine ⟨t₁, ht₁, ?_⟩
    rw [hpid, Except.ok_bind, hfamily, Except.ok_bind]
    exact ⟨_, rfl⟩

lemma tallyFields_timestamps (t : Tally) (fields : Json.Fields) :
    (tallyFields env t fields).timestamps =
      t.timestamps ++ (structuredTimestamp env fields).toList :=
  rfl

lemma tallyLine_timestamps {t t' : Tally} {line : PyStr} (h : tallyLine env t line = .ok t') :
    t'.timestamps = t.timestamps ++ (parseTimestamp env (timestamp env line)).toList := by
  obtain ⟨valid, -, h⟩ := Except.bind_eq_ok.mp h
  rw [Except.pure_eq_ok] at h
  rw [← h]

/-- An entry adds its times. -/
lemma tallyEntry_timestamps {maxSamples : ℕ} {t t' : Tally} {n : ℕ} {entry : LogEntry}
    (h : tallyEntry env maxSamples t (n, entry) = .ok t') :
    t'.timestamps = t.timestamps ++ entryTimestamps env entry := by
  obtain ⟨line, structured⟩ := entry
  simp only [tallyEntry] at h
  obtain ⟨t₁, ht₁, h⟩ := Except.bind_eq_ok.mp h
  obtain ⟨pid, -, h⟩ := Except.bind_eq_ok.mp h
  obtain ⟨family, -, h⟩ := Except.bind_eq_ok.mp h
  rw [Except.pure_eq_ok] at h
  have htimes : t'.timestamps = t₁.timestamps := by rw [← h]
  rw [htimes, tallyLine_timestamps ht₁, entryTimestamps, ← List.append_assoc]
  -- an entry that was not written as an object, or as an empty one, gives no time of its own
  have hempty : structuredTimestamp env [] = none := by
    simp [structuredTimestamp, Json.Fields.get, Json.Fields.getD]
  rcases structured with _ | _ | ⟨p, ps⟩
  · simp [hempty]
  · simp [hempty]
  · rfl

/-- The loop adds the times of all entries. -/
lemma tallyEntries_timestamps {maxSamples n : ℕ} {items : List LogEntry} {t t' : Tally}
    (h : ((List.range' n items.length).zip items).foldlM (tallyEntry env maxSamples) t = .ok t') :
    t'.timestamps = t.timestamps ++ items.flatMap (entryTimestamps env) := by
  induction items generalizing n t with
  | nil =>
    rw [List.zip_nil_right, List.foldlM_nil, Except.pure_eq_ok] at h
    rw [h, List.flatMap_nil, List.append_nil]
  | cons item items ih =>
    rw [List.length_cons, List.range'_succ, List.zip_cons_cons, List.foldlM_cons] at h
    obtain ⟨t₁, ht₁, h⟩ := Except.bind_eq_ok.mp h
    rw [ih h, tallyEntry_timestamps ht₁, List.flatMap_cons, List.append_assoc]

/-! ## The first and the last time -/

lemma Datetime.exists_lt_iff (a b : Datetime) :
    (∃ c, a.lt b = .ok c) ↔ a.offset.isSome = b.offset.isSome := by
  unfold Datetime.lt
  split
  · next h => simp [h, pure, Except.pure]
  · next h => simp [h, throw, throwThe, MonadExceptOf.throw]

/-- The best of some times is found when they compare. -/
lemma exists_bestTimestamp_iff {better : Datetime → Datetime → Except PyError Bool}
    (hbetter : ∀ a b, (∃ c, better a b = .ok c) ↔ a.offset.isSome = b.offset.isSome)
    (times : List Datetime) :
    (∃ best, bestTimestamp better times = .ok best) ↔ Comparable times := by
  have hloop : ∀ (times : List Datetime) (best : Datetime),
      (∃ b, times.foldlM (fun best t => do return if ← better t best then t else best) best =
        .ok b) ↔ ∀ t ∈ times, t.offset.isSome = best.offset.isSome := by
    intro times
    induction times with
    | nil => simp [pure, Except.pure]
    | cons t times ih =>
      intro best
      rw [List.foldlM_cons, Except.exists_bind_eq_ok, List.forall_mem_cons, ← hbetter]
      -- whichever of the two is kept, it has an offset like the best one so far
      have hkept : ∀ c, better t best = .ok c →
          ((∃ b, times.foldlM (fun best t => do return if ← better t best then t else best)
            (if c = true then t else best) = .ok b) ↔
            ∀ u ∈ times, u.offset.isSome = best.offset.isSome) := by
        intro c hc
        have hsame := (hbetter t best).mp ⟨c, hc⟩
        rw [ih]
        split <;> simp [hsame]
      constructor
      · rintro ⟨next, hnext, hrest⟩
        obtain ⟨c, hc, hnext⟩ := Except.bind_eq_ok.mp hnext
        rw [Except.pure_eq_ok] at hnext
        subst hnext
        exact ⟨⟨c, hc⟩, (hkept c hc).mp hrest⟩
      · rintro ⟨⟨c, hc⟩, hrest⟩
        exact ⟨_, by rw [hc]; rfl, (hkept c hc).mpr hrest⟩
  cases times with
  | nil => simp [bestTimestamp, Comparable, pure, Except.pure]
  | cons t times =>
    rw [bestTimestamp, Except.exists_bind_eq_ok]
    have hrest := hloop times t
    simp only [Except.pure_eq_ok, exists_eq', and_true]
    rw [hrest]
    constructor
    · intro h a ha b hb
      have hsame : ∀ c ∈ t :: times, c.offset.isSome = t.offset.isSome :=
        List.forall_mem_cons.mpr ⟨rfl, h⟩
      rw [hsame a ha, hsame b hb]
    · exact fun h u hu => h u (List.mem_cons_of_mem _ hu) t List.mem_cons_self

/-! ## The whole -/

/-- **When the preprocessing of a log returns.** -/
theorem preprocessLogWith_returns_iff (env : Env)
    (hint : ∀ text, ThreeDigits env text → (env.parseInt text).isSome)
    (maxPatterns maxSamples : ℕ) (logText : PyStr) :
    (∃ st, preprocessLogWith env maxPatterns maxSamples logText = .ok st) ↔
      (∀ text ∈ decodedTexts env logText, Decoded env text) ∧
        (∀ entry ∈ logLines env logText, Hashable env entry) ∧
        Comparable ((logLines env logText).flatMap (entryTimestamps env)) := by
  have hloop : ∀ items : List LogEntry,
      (∃ t, ((List.range items.length).zip items).foldlM (tallyEntry env maxSamples) .empty =
        .ok t) ↔ ∀ entry ∈ items, Hashable env entry := by
    intro items
    have hturn : ∀ (t : Tally) (item : ℕ × LogEntry),
        (∃ t', tallyEntry env maxSamples t item = .ok t') ↔ Hashable env item.2 :=
      fun t item => exists_tallyEntry_iff hint
    have hitems : ((List.range items.length).zip items).map Prod.snd = items :=
      List.map_snd_zip (by simp)
    rw [Except.exists_foldlM_eq_ok hturn]
    constructor
    · intro h entry hentry
      rw [← hitems, List.mem_map] at hentry
      obtain ⟨item, hitem, rfl⟩ := hentry
      exact h item hitem
    · exact fun h item hitem => h item.2 (hitems ▸ List.mem_map_of_mem hitem)
  have hmin : ∀ a b : Datetime, (∃ c, (fun t best : Datetime => t.lt best) a b = .ok c) ↔
      a.offset.isSome = b.offset.isSome := Datetime.exists_lt_iff
  have hmax : ∀ a b : Datetime, (∃ c, (fun t best : Datetime => best.lt t) a b = .ok c) ↔
      a.offset.isSome = b.offset.isSome := fun a b => (Datetime.exists_lt_iff b a).trans eq_comm
  rw [← exists_entries_iff]
  constructor
  · rintro ⟨st, h⟩
    obtain ⟨items, hitems, h⟩ := Except.bind_eq_ok.mp h
    obtain ⟨t, ht, h⟩ := Except.bind_eq_ok.mp h
    obtain ⟨first, hfirst, -⟩ := Except.bind_eq_ok.mp h
    have hlines : logLines env logText = items := by rw [logLines, hitems]; rfl
    rw [hlines]
    refine ⟨⟨items, hitems⟩, (hloop items).mp ⟨t, ht⟩, ?_⟩
    rw [List.range_eq_range'] at ht
    have htimes := tallyEntries_timestamps ht
    rw [← List.nil_append (items.flatMap _)]
    exact htimes ▸ (exists_bestTimestamp_iff hmin t.timestamps).mp ⟨first, hfirst⟩
  · rintro ⟨⟨items, hitems⟩, hhash, hcompare⟩
    have hlines : logLines env logText = items := by rw [logLines, hitems]; rfl
    rw [hlines] at hhash hcompare
    obtain ⟨t, ht⟩ := (hloop items).mpr hhash
    have htimes : t.timestamps = items.flatMap (entryTimestamps env) := by
      have hrange := ht
      rw [List.range_eq_range'] at hrange
      exact tallyEntries_timestamps hrange
    rw [← htimes] at hcompare
    obtain ⟨first, hfirst⟩ := (exists_bestTimestamp_iff hmin t.timestamps).mpr hcompare
    obtain ⟨last, hlast⟩ := (exists_bestTimestamp_iff hmax t.timestamps).mpr hcompare
    rw [preprocessLogWith, hitems, Except.ok_bind, ht, Except.ok_bind, hfirst, Except.ok_bind,
      hlast, Except.ok_bind]
    exact ⟨_, rfl⟩

/-- The library on ASCII digits, and the digests and the times of `mixedLog`. -/
def mixedEnv : Env where
  __ := sampleEnv
  sha256Hex := fun text => py (
    if text = py "<timestamp> a" then
      "b47d44b309e406b6aaa747e5287a31a436e8b92984391cb4057b55ad1c67e7d1"
    else if text = py "<timestamp> b" then
      "71d1c431b9624a97ebc8b19f973ca142a3153b841ca0fac8593ce0ddf63fe1aa"
    else if text = py "2024-01-01T00:00:00Z a" then
      "05366dbd8ded32a12e810dd2bdf6ce545fde015c4b8c6824f1f0e2a8aa5ba7c0"
    else
      "a2fe8f8d35d832b9f3be5ab5779fc82d8f1ba2c816e8b0e5858bbe2029c43999")
  parseInt := fun text =>
    if text.all isAsciiDigit ∧ text ≠ [] then
      some (text.foldl (fun n c => 10 * n + ((c : ℤ) - 48)) 0)
    else none
  fromIsoFormat := fun text =>
    if text = py "2024-01-01T00:00:00+00:00" then some ⟨1704067200000000, some 0⟩
    else if text = py "2024-01-01T00:00:00" then some ⟨1704067200000000, none⟩
    else none

/-- Two lines with the same time, once with an offset. -/
def mixedLog : PyStr := py "2024-01-01T00:00:00Z a\n2024-01-01T00:00:00 b"

/-- `preprocessLogWith_returns_iff` speaks about `mixedLog`. -/
theorem mixedLog_returns_iff : (∃ st, preprocessLogWith mixedEnv 80 40 mixedLog = .ok st) ↔
      (∀ text ∈ decodedTexts mixedEnv mixedLog, Decoded mixedEnv text) ∧
        (∀ entry ∈ logLines mixedEnv mixedLog, Hashable mixedEnv entry) ∧
        Comparable ((logLines mixedEnv mixedLog).flatMap (entryTimestamps mixedEnv)) := by
  refine preprocessLogWith_returns_iff mixedEnv ?_ 80 40 mixedLog
  rintro text ⟨hlen, hdigits⟩
  have hne : text ≠ [] := by
    rintro rfl
    cases hlen
  have hall : ∀ c ∈ text, isAsciiDigit c = true := hdigits
  simpa [mixedEnv, hne] using hall

/-- The preprocessing of `mixedLog` raises. -/
theorem mixedLog_raises : preprocessLog mixedEnv mixedLog = .error .typeError := by
  have hrun : (preprocessLog mixedEnv mixedLog).map (fun _ => ()) = .error .typeError := by
    rfl
  cases h : preprocessLog mixedEnv mixedLog with
  | error e =>
    rw [h] at hrun
    cases hrun
    rfl
  | ok st =>
    rw [h] at hrun
    cases hrun

end Totality

end Triage
