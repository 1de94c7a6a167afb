import NocReport.Foundation.Strip
import NocReport.Triage.Validation

set_option relaxedAutoImplicit false
set_option autoImplicit false

/-!
# The texts of appended findings

A finding that `reconcile_result` appends announces a family of patterns by its label: the
descriptor of the label goes into two fixed sentences. Of the checks of a detail only one depends
on the label, whether the sentence ends with an incomplete phrase. The labels of a log are never
blank.

## Main definitions

* `Triage.Statistics.Labelled` — every pattern has an id and a label that is not blank.
* `Triage.observedEn`, `Triage.observedZh` — the words before the descriptor.
* `Triage.Dangling` — a descriptor that leaves its sentence incomplete.

## Main results

* `Triage.preprocessLog_labelled` — the statistics of every log are labelled.
* `Triage.withinLimits_familyFinding_iff` — when the details of an appended finding are accepted.
-/

namespace Triage

/-! ## Labels -/

/-- Every pattern has an id and a label that is not blank. -/
structure Statistics.Labelled (st : Statistics) : Prop where
  ids : ∀ p ∈ st.patternManifest, p.id ≠ []
  labels : ∀ p ∈ st.patternManifest, notBlank p.label = true

/-- What the families are read off starts with a character that is no space. -/
lemma familySource_eq_cons (env : Env) {line : PyStr} (h : notBlank line = true) :
    ∃ c rest, PyStr.isSpace c = false ∧
      (whitespaceRegex.sub env.isWord (py " ") line).strip.take 2000 = c :: rest := by
  obtain ⟨c, hc, hspace⟩ : ∃ c ∈ line, PyStr.isSpace c = false := by
    by_contra hnone
    push Not at hnone
    have hall : ∀ c ∈ line.dropWhile PyStr.isSpace, PyStr.isSpace c = true := fun c hc => by
      simpa using hnone c ((List.dropWhile_sublist _).mem hc)
    have hnil : line.strip = [] := List.rdropWhile_eq_nil_iff.mpr hall
    simp [notBlank, hnil] at h
  have hmem : c ∈ whitespaceRegex.sub env.isWord (py " ") line := Regex.mem_sub_plus hc hspace
  have hne := PyStr.strip_ne_nil hmem hspace
  change (whitespaceRegex.sub env.isWord (py " ") line).strip ≠ [] at hne
  cases hstrip : (whitespaceRegex.sub env.isWord (py " ") line).strip with
  | nil => exact absurd hstrip hne
  | cons d rest => exact ⟨d, rest.take 1999, PyStr.not_isSpace_of_strip hstrip, rfl⟩

/-- The label of a family is not blank. -/
lemma notBlank_causeFamily (env : Env) {c : ℕ} {rest : PyStr} {family : PyStr × PyStr}
    (hc : PyStr.isSpace c = false) (h : causeFamily env (c :: rest) = .ok family) :
    notBlank family.2 = true := by
  unfold causeFamily at h
  dsimp only at h
  split at h
  · next f required l hrule =>
    have hrules : ∀ rule ∈ familyRules,
        (py rule.2.2).head?.any (fun c => !PyStr.isSpace c) = true := by decide
    rw [Except.pure_eq_ok] at h
    subst h
    have hhead := hrules _ (List.mem_of_find?_eq_some hrule)
    show notBlank (py l) = true
    dsimp only at hhead
    cases hl : py l with
    | nil => simp [hl] at hhead
    | cons d rest => exact notBlank_cons (by simpa [hl] using hhead)
  · split at h
    · obtain ⟨id, -, h⟩ := Except.bind_eq_ok.mp h
      rw [Except.pure_eq_ok] at h
      subst h
      exact notBlank_cons hc
    · rw [Except.pure_eq_ok] at h
      subst h
      have hstart : py "Related " = 82 :: py "elated " := by decide
      simp only [hstart, List.cons_append]
      exact notBlank_cons (by decide)

/-- The labels on record are not blank. -/
def Tally.Labelled (t : Tally) : Prop :=
  ∀ pid family, Dict.get? t.patternFamilies pid = some family → notBlank family.2 = true

lemma tallyEntry_labelled {env : Env} {t t' : Tally} {maxSamples n : ℕ} {entry : LogEntry}
    (hentry : notBlank entry.1 = true) (ht : t.Labelled)
    (h : tallyEntry env maxSamples t (n, entry) = .ok t') : t'.Labelled := by
  obtain ⟨e, family, -, -, -, hfamily, -, -, -, hfamilies⟩ := tallyEntry_frame h
  intro pid family' hget
  rw [hfamilies, Dict.get?_set] at hget
  split at hget
  · cases hget
    obtain ⟨c, rest, hc, hsource⟩ := familySource_eq_cons env hentry
    rw [lineFamily, hsource] at hfamily
    exact notBlank_causeFamily env hc hfamily
  · exact ht pid family' hget

lemma tallyEntries_labelled {env : Env} {t t' : Tally} {maxSamples n : ℕ} {items : List LogEntry}
    (hitems : ∀ entry ∈ items, notBlank entry.1 = true) (ht : t.Labelled)
    (h : ((List.range' n items.length).zip items).foldlM (tallyEntry env maxSamples) t = .ok t') :
    t'.Labelled := by
  induction items generalizing t n with
  | nil =>
    rw [List.zip_nil_right, List.foldlM_nil, Except.pure_eq_ok] at h
    exact h ▸ ht
  | cons item items ih =>
    rw [List.length_cons, List.range'_succ, List.zip_cons_cons, List.foldlM_cons] at h
    obtain ⟨t₁, ht₁, h⟩ := Except.bind_eq_ok.mp h
    obtain ⟨hitem, hitems⟩ := List.forall_mem_cons.mp hitems
    exact ih hitems (tallyEntry_labelled hitem ht ht₁) h

/-- No entry of a log is blank. -/
lemma notBlank_of_entries {env : Env} {logText : PyStr} {items : List LogEntry}
    (hdumps : ∀ fields, notBlank (env.jsonDumps (.obj fields)) = true)
    (h : entries env logText = .ok items) : ∀ entry ∈ items, notBlank entry.1 = true := by
  obtain ⟨document, -, h⟩ := Except.bind_eq_ok.mp h
  intro entry hentry
  split at h
  · rw [Except.pure_eq_ok] at h
    subst h
    exact (List.mem_filter.mp hentry).2
  · rw [Except.pure_eq_ok] at h
    subst h
    rw [List.mem_singleton.mp hentry]
    exact hdumps _
  · obtain ⟨line, hline, hparsed⟩ := Except.mem_of_mapM_eq_ok h hentry
    obtain ⟨structured, -, hparsed⟩ := Except.bind_eq_ok.mp hparsed
    rw [Except.pure_eq_ok] at hparsed
    subst hparsed
    exact (List.mem_filter.mp hline).2

/-- **The statistics of every log are labelled**, as `json.dumps` of an object is not blank. -/
theorem preprocessLog_labelled {env : Env} {logText : PyStr} {st : Statistics}
    (hdumps : ∀ fields, notBlank (env.jsonDumps (.obj fields)) = true)
    (h : preprocessLog env logText = .ok st) : st.Labelled := by
  obtain ⟨items, hitems, h⟩ := Except.bind_eq_ok.mp h
  obtain ⟨t, ht, h⟩ := Except.bind_eq_ok.mp h
  obtain ⟨first, -, h⟩ := Except.bind_eq_ok.mp h
  obtain ⟨last, -, h⟩ := Except.bind_eq_ok.mp h
  rw [Except.pure_eq_ok] at h
  subst h
  rw [List.range_eq_range'] at ht
  have hsound := tallyEntries_sound Tally.sound_empty ht
  have hlabelled : t.Labelled := tallyEntries_labelled (notBlank_of_entries hdumps hitems)
    (fun _ _ h => by cases h) ht
  have hranked : ∀ pid ∈ t.ranked, pid ≠ [] ∧ notBlank (t.pattern pid).label = true := by
    intro pid hpid
    have hkey := t.ranked_perm.mem_iff.mp hpid
    constructor
    · obtain ⟨digest, rfl⟩ := hsound.named pid hkey
      exact List.cons_ne_nil _ _
    · show notBlank (Dict.getD t.patternFamilies pid ([], [])).2 = true
      cases hget : Dict.get? t.patternFamilies pid with
      | none =>
        have hne := hsound.family pid hkey
        simp [Dict.getD, hget] at hne
      | some family =>
        rw [Dict.getD, hget]
        exact hlabelled pid family hget
  have hpatterns : ∀ p ∈ t.patterns 80, p.id ≠ [] ∧ notBlank p.label = true := by
    intro p hp
    rcases List.mem_append.mp hp with hp | hp
    · obtain ⟨pid, hpid, rfl⟩ := List.mem_map.mp hp
      exact hranked pid (List.mem_of_mem_take hpid)
    · split at hp
      · cases hp
      · rw [List.mem_singleton.mp hp]
        exact ⟨List.cons_ne_nil _ _, notBlank_cons (by decide)⟩
  exact ⟨fun p hp => (hpatterns p hp).1, fun p hp => (hpatterns p hp).2⟩

/-! ## Descriptors -/

/-- A descriptor has no sentence ends, and at most 180 characters. -/
lemma descriptor_spec (env : Env) (label : PyStr) :
    (descriptor env label).length ≤ 180 ∧
      ∀ c ∈ descriptor env label, isSentenceEnding c = false := by
  have hfront : descriptor env label <+: (whitespaceRegex.sub env.isWord (py " ")
      ((Regex.plus (.chars (among ".!?。！？"))).sub env.isWord (py " ") label)).strip.take 180 :=
    List.rdropWhile_prefix _ _
  refine ⟨hfront.length_le.trans (List.length_take_le _ _), fun c hc => ?_⟩
  have hmem := PyStr.mem_of_mem_strip (List.mem_of_mem_take (hfront.mem hc))
  have hspace : ∀ c ∈ py " ", isSentenceEnding c = false := by decide
  rcases Regex.mem_of_mem_sub_plus hmem with ⟨hmem, -⟩ | hmem
  · rcases Regex.mem_of_mem_sub_plus hmem with ⟨-, hc⟩ | hmem
    · exact hc
    · exact hspace c hmem
  · exact hspace c hmem

/-- The words before the descriptor of an appended finding. -/
def observedEn : PyStr := py "Observed related log entries matching: "

@[inherit_doc observedEn]
def observedZh : PyStr := py "相关日志条目匹配以下模式："

/-- The descriptor leaves the sentence it ends incomplete, in one of the languages. -/
def Dangling (env : Env) (about : PyStr) : Prop :=
  ∃ words ∈ [observedEn, observedZh],
    occurs env (trailingIncompleteRegex env) (words ++ about) = true

instance (env : Env) (about : PyStr) : Decidable (Dangling env about) :=
  inferInstanceAs (Decidable (∃ words ∈ [observedEn, observedZh], _))

/-! ## Announcements -/

section Sentences

variable {env : Env} {words about : PyStr} {stop : ℕ}

/-- A sentence that announces something: fixed words, a descriptor and a full stop. -/
structure Announces (words about : PyStr) (stop : ℕ) : Prop where
  starts : ∃ c rest, words = c :: rest ∧ PyStr.isSpace c = false
  silent : ∀ c ∈ words ++ about, isSentenceEnding c = false
  stop : stop = 46 ∨ stop = 0x3002

/-- Such a sentence is complete unless its descriptor dangles. -/
lemma Announces.complete_iff (h : Announces words about stop) (path : PyStr) :
    validateNarrativeCompletion env (words ++ about ++ [stop]) path = .ok () ↔
      occurs env (trailingIncompleteRegex env) (words ++ about) = false := by
  obtain ⟨c, rest, hwords, hc⟩ := h.starts
  have hspace : PyStr.isSpace stop = false := by rcases h.stop with h | h <;> (rw [h]; decide)
  have hending : isSentenceEnding stop = true := by rcases h.stop with h | h <;> (rw [h]; decide)
  have hquote : among ")]\x7d\"'”’》）】" stop = false := by
    rcases h.stop with h | h <;> (rw [h]; decide)
  have hstrip : PyStr.strip (words ++ about ++ [stop]) = words ++ about ++ [stop] := by
    rw [hwords, List.cons_append]
    exact PyStr.strip_eq_self hc hspace
  have hlexical : lexicalOf (words ++ about ++ [stop]) = words ++ about ++ [stop] :=
    List.rdropWhile_concat_neg _ _ _ (by simp [hquote])
  have hbody : rstripChars ".!?。！？" (words ++ about ++ [stop]) = words ++ about := by
    refine (List.rdropWhile_concat_pos _ _ _ hending).trans ?_
    refine (List.rdropWhile_eq_self_iff).mpr fun hne => ?_
    have hlast := h.silent _ (List.getLast_mem hne)
    simpa [isSentenceEnding] using hlast
  have hdots : ((py "...").isSuffixOf (words ++ about ++ [stop]) ||
      (py "…").isSuffixOf (words ++ about ++ [stop])) = false := by
    have hne : words ++ about ≠ [] := by simp [hwords]
    rw [Bool.or_eq_false_iff]
    constructor
    · by_contra hsuffix
      obtain ⟨front, hfront⟩ := List.isSuffixOf_iff_suffix.mp (Bool.eq_true_of_not_eq_false hsuffix)
      have hsplit : front ++ [46, 46] ++ [46] = words ++ about ++ [stop] := by
        rw [← hfront, List.append_assoc]
        rfl
      obtain ⟨hsame, -⟩ := List.append_inj' hsplit rfl
      have hdot := h.silent 46 (by rw [← hsame]; simp)
      exact absurd hdot (by decide)
    · by_contra hsuffix
      obtain ⟨front, hfront⟩ := List.isSuffixOf_iff_suffix.mp (Bool.eq_true_of_not_eq_false hsuffix)
      obtain ⟨-, hsame⟩ := List.append_inj' hfront rfl
      rcases h.stop with h | h <;> (rw [h] at hsame; exact absurd hsame (by decide))
  have hempty : (words ++ about ++ [stop]).isEmpty = false := by simp
  have hlast : (words ++ about ++ [stop]).getLast?.any isSentenceEnding = true := by
    rw [List.getLast?_concat, Option.any_some, hending]
  unfold validateNarrativeCompletion
  dsimp only
  rw [hstrip, hlexical, hbody, hdots, hempty, hlast]
  simp [Except.bind_eq_ok]

/-- Such a sentence is one sentence. -/
lemma Announces.sentenceCount (h : Announces words about stop) :
    sentenceCount (words ++ about ++ [stop]) = 1 := by
  have hsilent : (words ++ about).countP isSentenceEnding = 0 :=
    List.countP_eq_zero.mpr fun c hc => by simp [h.silent c hc]
  have hending : isSentenceEnding stop = true := by rcases h.stop with h | h <;> (rw [h]; decide)
  rw [Triage.sentenceCount, List.countP_append, hsilent]
  simp [hending]

/-- A descriptor that is announced. -/
lemma announces_en (env : Env) (label : PyStr) : Announces observedEn (descriptor env label) 46 where
  starts := ⟨79, py "bserved related log entries matching: ", by decide, by decide⟩
  silent c hc := by
    have hwords : ∀ c ∈ observedEn, isSentenceEnding c = false := by decide
    exact (List.mem_append.mp hc).elim (hwords c) ((descriptor_spec env label).2 c)
  stop := .inl rfl

lemma announces_zh (env : Env) (label : PyStr) :
    Announces observedZh (descriptor env label) 0x3002 where
  starts := ⟨0x76F8, py "关日志条目匹配以下模式：", by decide, by decide⟩
  silent c hc := by
    have hwords : ∀ c ∈ observedZh, isSentenceEnding c = false := by decide
    exact (List.mem_append.mp hc).elim (hwords c) ((descriptor_spec env label).2 c)
  stop := .inr rfl

/-- A detail that announces a descriptor is accepted unless its sentence is incomplete. -/
lemma Announces.validateDetail_iff {path name : PyStr} {maximumLength maximumSentences : ℕ}
    {finding : Json.Fields} {field : String} (h : Announces words about stop)
    (hget : Json.Fields.get finding (py field) = .str (words ++ about ++ [stop]))
    (hlength : (words ++ about ++ [stop]).length ≤ maximumLength)
    (hsentences : 1 ≤ maximumSentences) :
    validateDetail env path name maximumLength maximumSentences finding field = .ok () ↔
      occurs env (trailingIncompleteRegex env) (words ++ about) = false := by
  have hshort : decide (maximumLength < (words ++ about ++ [stop]).length) = false :=
    decide_eq_false (Nat.not_lt.mpr hlength)
  have hone : decide (maximumSentences < Triage.sentenceCount (words ++ about ++ [stop])) =
      false := decide_eq_false (by rw [h.sentenceCount]; exact Nat.not_lt.mpr hsentences)
  unfold validateDetail
  rw [hget]
  dsimp only
  rw [hshort, hone]
  exact h.complete_iff _

end Sentences

/-! ## Appended findings -/

section Announcements

variable (env : Env) (st : Statistics)

/-- The label of a family, as an appended finding has it. -/
def familyLabel (family : PyStr) (item : Pattern) : PyStr :=
  (Dict.get? (familyLabels st) family).getD item.template

/-- The finding that is appended for the unused patterns of a family. -/
def announcement (group : PyStr × List Pattern) : Json.Fields :=
  match group.2 with
  | [] => []
  | item :: _ =>
    let about := descriptor env (familyLabel st group.1 item)
    familyFinding st "unlabeled-" group.1 item (group.2.map (·.id)) (group.2.map (·.count)).sum
      (observedEn ++ about ++ py ".") (observedZh ++ about ++ py "。")

end Announcements

variable {env : Env} {st : Statistics}

/-- The details of an appended finding are accepted in both groups, unless its descriptor
dangles. -/
theorem withinLimits_familyFinding_iff {maximumLength maximumSentences : ℕ} {kind : String}
    {family label : PyStr} {item : Pattern} {ids : List PyStr} {count : ℕ}
    (hlength : 320 ≤ maximumLength) (hsentences : 1 ≤ maximumSentences) :
    WithinLimits env maximumLength maximumSentences
        (familyFinding st kind family item ids count
          (observedEn ++ descriptor env label ++ py ".")
          (observedZh ++ descriptor env label ++ py "。")) ↔
      ¬ Dangling env (descriptor env label) := by
  have hshort := (descriptor_spec env label).1
  have hen : (observedEn ++ descriptor env label ++ [46]).length ≤ maximumLength := by
    have hwords : observedEn.length = 39 := by decide
    simp only [List.length_append, List.length_singleton, hwords]
    omega
  have hzh : (observedZh ++ descriptor env label ++ [0x3002]).length ≤ maximumLength := by
    have hwords : observedZh.length = 13 := by decide
    simp only [List.length_append, List.length_singleton, hwords]
    omega
  have hgetEn := fun detailEn detailZh => show Json.Fields.get
    (familyFinding st kind family item ids count detailEn detailZh) (py "detail_en") =
      .str detailEn by simp [familyFinding, Json.Fields.get, Json.Fields.getD, Dict.get?_cons]
  have hgetZh := fun detailEn detailZh => show Json.Fields.get
    (familyFinding st kind family item ids count detailEn detailZh) (py "detail_zh") =
      .str detailZh by simp [familyFinding, Json.Fields.get, Json.Fields.getD, Dict.get?_cons]
  simp only [WithinLimits, List.forall_mem_cons, List.not_mem_nil, false_imp_iff, forall_const,
    and_true]
  rw [show py "." = [46] from rfl, show py "。" = [0x3002] from rfl,
    (announces_zh env label).validateDetail_iff (hgetZh _ _) hzh hsentences,
    (announces_en env label).validateDetail_iff (hgetEn _ _) hen hsentences]
  simp [Dangling, and_comm]

/-- The share of an appended finding is what the checks expect. -/
lemma validatePercentage_percentage {path : PyStr} {count total : ℕ} (h : count ≤ total) :
    validatePercentage env path count total (percentage count total) = .ok () := by
  have hexpected : expectedPercentage count total =
      if total = 0 then 0 else Double.roundTo 2 (Double.mul (Double.div count total) 100) := by
    rw [expectedPercentage]
    norm_cast
  have hbounds : 0 ≤ expectedPercentage count total ∧ expectedPercentage count total ≤ 100 := by
    rw [hexpected]
    split
    · norm_num
    · exact Double.percentage_bounds h
  have htolerance : 0 ≤ Double.nearest (1 / 100) := Double.nearest_nonneg (by norm_num)
  have hsame : Double.nearest (expectedPercentage count total - expectedPercentage count total) =
      0 := by rw [sub_self]; rfl
  have hclose : decide (Double.nearest (1 / 100) <
      |Double.nearest (expectedPercentage count total - expectedPercentage count total)|) =
        false := by
    rw [hsame, abs_zero]
    exact decide_eq_false (not_lt.mpr htolerance)
  have hrange : (!(decide (0 ≤ expectedPercentage count total) &&
      decide (expectedPercentage count total ≤ 100))) = false := by
    simp [hbounds]
  rw [percentage, ← hexpected]
  unfold validatePercentage
  simp only [floatOf, pure_bind, hclose, hrange]
  rfl

/-- What the checks read off an appended finding. -/
structure Announced (st : Statistics) (finding : Json.Fields) (id label : PyStr)
    (ids : List PyStr) (count : ℕ) (detailEn detailZh : PyStr) : Prop where
  id : Json.Fields.get finding (py "id") = .str id
  labelZh : Json.Fields.get finding (py "label_zh") = .str label
  labelEn : Json.Fields.get finding (py "label_en") = .str label
  detailZh : Json.Fields.get finding (py "detail_zh") = .str detailZh
  detailEn : Json.Fields.get finding (py "detail_en") = .str detailEn
  patternIds : Json.Fields.get finding (py "pattern_ids") = texts ids
  counted : Json.Fields.get finding (py "count") = .int count
  share : Json.Fields.get finding (py "percentage") = percentage count st.totalEntries
  evidence : Json.Fields.get finding (py "evidence_entry_ids") = .null
  physical : Json.Fields.get finding (py "physical_entry_count") = .null
  occurrences : Json.Fields.get finding (py "occurrence_count") = .null

lemma announced_familyFinding (st : Statistics) (kind : String) (family : PyStr) (item : Pattern)
    (ids : List PyStr) (count : ℕ) (detailEn detailZh : PyStr) :
    Announced st (familyFinding st kind family item ids count detailEn detailZh)
      (py kind ++ family) (familyLabel st family item) ids count detailEn detailZh := by
  constructor <;>
    simp [familyFinding, familyLabel, Json.Fields.get, Json.Fields.getD, Dict.get?_cons]

section Alone

variable {finding : Json.Fields} {id label : PyStr} {ids : List PyStr} {count : ℕ}
  {detailEn detailZh : PyStr}

/-- The patterns of an appended finding are texts, and different. -/
lemma Announced.validatePatternIds (h : Announced st finding id label ids count detailEn detailZh)
    (hne : ids ≠ []) (hids : ∀ id ∈ ids, id ≠ []) (hnodup : ids.Nodup) :
    validatePatternIds [] .none finding = .ok ids := by
  have htexts : (ids.map Json.str).filterMap nonEmptyId = ids := by
    rw [List.filterMap_map]
    refine (List.filterMap_congr fun id hid => ?_).trans List.filterMap_some
    cases id with
    | nil => exact absurd rfl (hids [] hid)
    | cons c cs => rfl
  have hdups : ids.eraseDups = ids := List.eraseDups_of_nodup hnodup
  unfold Triage.validatePatternIds
  rw [h.patternIds, texts]
  cases ids with
  | nil => exact absurd rfl hne
  | cons first rest =>
    rw [List.map_cons] at htexts ⊢
    have hlength : ((first :: rest).length != (Json.str first :: rest.map Json.str).length) =
        false := by simp
    have hnone : (first :: rest).find? Seen.none.ids.contains = none := by
      simp [List.find?_eq_none, Seen.none]
    dsimp only
    rw [htexts, hdups, hlength, hnone, bne_self_eq_false]
    rfl

/-- **An appended finding is accepted alone.** -/
lemma Announced.acceptedAlone (h : Announced st finding id label ids count detailEn detailZh)
    (hid : notBlank id = true) (hlabel : notBlank label = true)
    (hen : notBlank detailEn = true) (hzh : notBlank detailZh = true)
    (hne : ids ≠ []) (hids : ∀ id ∈ ids, id ≠ []) (hnodup : ids.Nodup)
    (hmarker : py "unquantified" ∉ ids) (hcount : count ≤ st.totalEntries) :
    acceptedAlone env st.totalEntries (.obj finding) = .ok ⟨ids, [id]⟩ := by
  have htext : ∀ {field : String} {text : PyStr}, Json.Fields.get finding (py field) = .str text →
      notBlank text = true → validateText [] finding field = .ok () := by
    intro field text hfield htext
    simp [validateText, hfield, htext]
  refine validateFinding_obj.mpr ⟨id, ids, none, ?_, ?_, h.validatePatternIds hne hids hnodup, ?_,
    ?_, ?_, rfl⟩
  · unfold validateId
    rw [h.id]
    dsimp only
    rw [hid]
    rfl
  · simp only [List.forall_mem_cons, List.not_mem_nil, false_imp_iff, forall_const, and_true]
    exact ⟨htext h.labelZh hlabel, htext h.labelEn hlabel, htext h.detailZh hzh,
      htext h.detailEn hen⟩
  · unfold validateEvidence
    rw [h.evidence]
    rfl
  · unfold validateEntryCounts
    dsimp only
    rw [h.physical, h.occurrences]
    rfl
  · have hquantified : isUnquantified (texts ids) = false := isUnquantified_texts hmarker
    have hle : decide ((st.totalEntries : ℤ) < (count : ℤ)) = false := by simpa using hcount
    unfold validateShares
    rw [h.patternIds, hquantified, if_neg Bool.false_ne_true]
    unfold validateCount
    rw [h.counted, h.share]
    show (refuse (decide ((st.totalEntries : ℤ) < (count : ℤ))) _ >>= fun _ =>
      refuse false _ >>= fun _ => validatePercentage env [] count st.totalEntries
        (Triage.percentage count st.totalEntries)) = .ok ()
    rw [hle, validatePercentage_percentage hcount]
    rfl

end Alone

end Triage
