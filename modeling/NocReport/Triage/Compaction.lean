import NocReport.Foundation.Strip
import NocReport.Triage.Attempts

set_option relaxedAutoImplicit false
set_option autoImplicit false

/-!
# Shorter narratives and their checks

A narrative that is too long is cut right after one of its sentence endings. The checks of a
result count characters and sentences on their own, and have limits of their own.

## Main definitions

* `Triage.Cuts` — a piece a narrative is cut to.
* `Triage.Shortened` — what shortening does with a field.
* `Triage.validateUnlimited` — the checks without the upper limits of narratives.
* `Triage.CompactionAgrees` — shortening does what the checks ask for.

## Main results

* `Triage.compactNarrative_eq_ok` — what a narrative is shortened to.
* `Triage.compactLogTriageNarrative_agrees` — shortening agrees with the checks.
-/

namespace Triage

/-! ## Sentence endings -/

section Endings

variable {text : PyStr}

lemma isSpace_of_isSentenceEnding {c : ℕ} (h : isSentenceEnding c = true) :
    PyStr.isSpace c = false := by
  have hall : ∀ d ∈ py ".!?。！？", PyStr.isSpace d = false := by decide
  exact hall c (by simpa [isSentenceEnding, among] using h)

lemma sentenceEnds_cons (c : ℕ) (text : PyStr) :
    sentenceEnds (c :: text) =
      (if isSentenceEnding c then [1] else []) ++ (sentenceEnds text).map (· + 1) := by
  simp only [sentenceEnds, List.zipIdx_cons', List.filter_cons, List.filter_map, List.map_map]
  split <;> simp [Function.comp_def]

lemma pos_of_mem_sentenceEnds {i : ℕ} (h : i ∈ sentenceEnds text) : 0 < i := by
  obtain ⟨p, -, rfl⟩ := List.mem_map.mp h
  exact Nat.succ_pos _

/-- The sentence endings of a piece from the front are those within it. -/
lemma sentenceEnds_take (text : PyStr) (k : ℕ) :
    sentenceEnds (text.take k) = (sentenceEnds text).filter (· ≤ k) := by
  induction text generalizing k with
  | nil => simp [sentenceEnds]
  | cons c text ih =>
    cases k with
    | zero =>
      refine (List.filter_eq_nil_iff.mpr fun i hi => ?_).symm
      simpa using (pos_of_mem_sentenceEnds hi).ne'
    | succ k =>
      rw [List.take_succ_cons, sentenceEnds_cons, sentenceEnds_cons, ih]
      split <;> simp [List.filter_map, Function.comp_def]

lemma length_sentenceEnds (text : PyStr) :
    (sentenceEnds text).length = text.countP isSentenceEnding := by
  induction text with
  | nil => rfl
  | cons c text ih =>
    rw [sentenceEnds_cons, List.countP_cons, List.length_append, List.length_map, ih]
    split <;> simp [Nat.add_comm]

lemma pairwise_sentenceEnds (text : PyStr) : (sentenceEnds text).Pairwise (· < ·) := by
  induction text with
  | nil => exact .nil
  | cons c text ih =>
    have hrest : ((sentenceEnds text).map (· + 1)).Pairwise (· < ·) :=
      List.pairwise_map.mpr (ih.imp fun h => by omega)
    rw [sentenceEnds_cons]
    split
    · refine List.pairwise_cons.mpr ⟨fun i hi => ?_, hrest⟩
      obtain ⟨j, hj, rfl⟩ := List.mem_map.mp hi
      have := pos_of_mem_sentenceEnds hj
      omega
    · exact hrest

/-- A place is right after a sentence ending when a piece from the front ends there with one. -/
lemma mem_sentenceEnds {i : ℕ} :
    i ∈ sentenceEnds text ↔ ∃ before last, before ++ [last] <+: text ∧
      isSentenceEnding last = true ∧ i = before.length + 1 := by
  simp only [sentenceEnds, List.mem_map, List.mem_filter, Prod.exists, List.mem_zipIdx_iff_getElem?]
  constructor
  · rintro ⟨last, j, ⟨hlast, hending⟩, rfl⟩
    obtain ⟨hj, rfl⟩ := List.getElem?_eq_some_iff.mp hlast
    refine ⟨text.take j, text[j], ?_, hending, by rw [List.length_take]; omega⟩
    rw [List.take_concat_get' text j hj]
    exact List.take_prefix _ _
  · rintro ⟨before, last, ⟨after, rfl⟩, hending, rfl⟩
    exact ⟨last, before.length, ⟨by simp, hending⟩, rfl⟩

/-- The places right after sentence endings are numbered by the endings up to there. -/
lemma getElem?_sentenceEnds {n i : ℕ} :
    (sentenceEnds text)[n]? = some i ↔
      i ∈ sentenceEnds text ∧ (text.take i).countP isSentenceEnding = n + 1 := by
  have hcount : ∀ {m j : ℕ}, (sentenceEnds text)[m]? = some j →
      (text.take j).countP isSentenceEnding = m + 1 := by
    intro m j hj
    obtain ⟨hm, -⟩ := List.getElem?_eq_some_iff.mp hj
    rw [← length_sentenceEnds, sentenceEnds_take,
      List.filter_le_of_getElem? (pairwise_sentenceEnds text) hj, List.length_take]
    omega
  constructor
  · exact fun h => ⟨List.mem_of_getElem? h, hcount h⟩
  · rintro ⟨hmem, hn⟩
    obtain ⟨m, hm⟩ := List.mem_iff_getElem?.mp hmem
    rwa [← show m = n by have := hcount hm; omega]

end Endings

/-! ## The cut -/

section Cut

variable {value text out : PyStr} {maxChars maxSentences : ℤ}

/-- The narrative is within its limits. -/
def Fits (text : PyStr) (maxChars maxSentences : ℤ) : Prop :=
  text.length ≤ maxChars ∧ text.countP isSentenceEnding ≤ maxSentences

/-- The number of sentences that are kept of those that end within the first characters. -/
def sentencesKept (text : PyStr) (maxChars maxSentences : ℤ) : ℤ :=
  let within := (text.take maxChars.toNat).countP isSentenceEnding
  if 0 < maxSentences then min maxSentences within else within + maxSentences

/-- The narrative is cut after this piece: it ends with a sentence, is short enough, and has as
many sentences as are kept. -/
structure Cuts (text : PyStr) (maxChars maxSentences : ℤ) (before : PyStr) (last : ℕ) : Prop where
  starts : before ++ [last] <+: text
  ending : isSentenceEnding last = true
  short : before.length + 1 ≤ maxChars
  rank : (before ++ [last]).countP isSentenceEnding = sentencesKept text maxChars maxSentences

/-- The places a narrative may be cut at are the sentence endings of its first characters. -/
lemma usable_eq (text : PyStr) (maxChars : ℤ) :
    (sentenceEnds text).filter (fun index : ℕ => decide ((index : ℤ) ≤ maxChars)) =
      sentenceEnds (text.take maxChars.toNat) := by
  rw [sentenceEnds_take]
  refine List.filter_congr fun i hi => ?_
  have := pos_of_mem_sentenceEnds hi
  rw [decide_eq_decide]
  omega

/-- The place the limits choose among those a narrative may be cut at. -/
lemma pyGet?_usable {cutoff : ℕ} (hne : sentenceEnds (text.take maxChars.toNat) ≠ []) :
    (sentenceEnds (text.take maxChars.toNat)).pyGet?
        (min maxSentences (sentenceEnds (text.take maxChars.toNat)).length - 1) = some cutoff ↔
      cutoff ∈ sentenceEnds (text.take maxChars.toNat) ∧
        ((text.take maxChars.toNat).take cutoff).countP isSentenceEnding =
          sentencesKept text maxChars maxSentences := by
  have hpos := List.length_pos_iff.mpr hne
  have hlength := length_sentenceEnds (text.take maxChars.toNat)
  rw [List.pyGet?_eq_some_iff]
  simp only [getElem?_sentenceEnds, List.pyOffset, sentencesKept, ← hlength]
  constructor
  · rintro ⟨n, hn, hmem, hcount⟩
    refine ⟨hmem, ?_⟩
    rw [hcount]
    split at hn <;> split <;> omega
  · rintro ⟨hmem, hcount⟩
    have hrank : 0 < ((text.take maxChars.toNat).take cutoff).countP isSentenceEnding := by
      obtain ⟨m, hm⟩ := List.mem_iff_getElem?.mp hmem
      rw [(getElem?_sentenceEnds.mp hm).2]
      omega
    refine ⟨((text.take maxChars.toNat).take cutoff).countP isSentenceEnding - 1, ?_, hmem,
      by omega⟩
    split <;> split at hcount <;> omega

lemma Cuts.take {before : PyStr} {last : ℕ} (h : Cuts text maxChars maxSentences before last) :
    text.take (before.length + 1) = before ++ [last] := by
  rw [List.prefix_iff_eq_take.mp h.starts, List.length_append, List.length_singleton]

/-- The place the limits choose is the end of the piece the narrative is cut to. -/
lemma cuts_iff {cutoff : ℕ} :
    (cutoff ∈ sentenceEnds (text.take maxChars.toNat) ∧
        ((text.take maxChars.toNat).take cutoff).countP isSentenceEnding =
          sentencesKept text maxChars maxSentences) ↔
      ∃ before last, Cuts text maxChars maxSentences before last ∧
        cutoff = before.length + 1 := by
  rw [mem_sentenceEnds]
  constructor
  · rintro ⟨⟨before, last, hstarts, hending, rfl⟩, hrank⟩
    have hlength := hstarts.length_le
    rw [List.length_append, List.length_singleton, List.length_take] at hlength
    refine ⟨before, last, ⟨hstarts.trans (List.take_prefix _ _), hending, by omega, ?_⟩, rfl⟩
    rw [← hrank, List.prefix_iff_eq_take.mp hstarts, List.length_append, List.length_singleton]
  · rintro ⟨before, last, hcut, rfl⟩
    have hlength := hcut.starts.length_le
    have hshort := hcut.short
    rw [List.length_append, List.length_singleton] at hlength
    refine ⟨⟨before, last, ?_, hcut.ending, rfl⟩, ?_⟩
    · rw [List.prefix_take_iff, List.length_append, List.length_singleton]
      exact ⟨hcut.starts, by omega⟩
    · rw [List.take_take, show min (before.length + 1) maxChars.toNat = before.length + 1 by omega,
        hcut.take, hcut.rank]

/-- **What a narrative is shortened to.** -/
theorem compactNarrative_eq_ok :
    compactNarrative value maxChars maxSentences = .ok out ↔
      (Fits value.strip maxChars maxSentences ∧ out = value.strip) ∨
      (¬ Fits value.strip maxChars maxSentences ∧ ∃ before last,
        Cuts value.strip maxChars maxSentences before last ∧ out = before ++ [last]) := by
  have hstrip : ∀ {before last}, Cuts value.strip maxChars maxSentences before last →
      PyStr.strip (value.strip.take (before.length + 1)) = before ++ [last] := fun hcut => by
    rw [hcut.take]
    exact PyStr.strip_of_prefix hcut.starts (isSpace_of_isSentenceEnding hcut.ending)
  unfold compactNarrative
  dsimp only
  rw [length_sentenceEnds, usable_eq]
  by_cases hfits : Fits value.strip maxChars maxSentences
  · rw [if_pos (c := _ ∧ _) hfits, Except.pure_eq_ok]
    simp [hfits, eq_comm]
  · rw [if_neg (c := _ ∧ _) hfits]
    simp only [hfits, false_and, not_false_eq_true, true_and, false_or]
    split
    · next hnone =>
      -- no sentence ends early enough
      refine ⟨fun h => absurd h Except.throw_ne_ok, ?_⟩
      rintro ⟨before, last, hcut, -⟩
      have hmem := (cuts_iff.mpr ⟨before, last, hcut, rfl⟩).1
      rw [hnone] at hmem
      cases hmem
    · next hne =>
      have hchosen : ∀ cutoff, (sentenceEnds (value.strip.take maxChars.toNat)).pyGet?
          (min maxSentences (sentenceEnds (value.strip.take maxChars.toNat)).length - 1) =
            some cutoff ↔ ∃ before last, Cuts value.strip maxChars maxSentences before last ∧
              cutoff = before.length + 1 :=
        fun cutoff => (pyGet?_usable hne).trans cuts_iff
      constructor
      · intro h
        split at h
        · next cutoff hcutoff =>
          obtain ⟨before, last, hcut, rfl⟩ := (hchosen cutoff).mp hcutoff
          rw [hstrip hcut, Except.pure_eq_ok] at h
          exact ⟨before, last, hcut, h.symm⟩
        · exact absurd h Except.throw_ne_ok
      · rintro ⟨before, last, hcut, rfl⟩
        rw [(hchosen _).mpr ⟨before, last, hcut, rfl⟩]
        exact congrArg Except.ok (hstrip hcut)

end Cut

/-! ## Narratives within limits -/

section Narratives

variable {value text out : PyStr} {maxChars maxSentences : ℕ}

/-- A narrative that is within limits, as the checks count. -/
structure Short (maxChars maxSentences : ℕ) (text : PyStr) : Prop where
  stripped : text.strip = text
  length : text.length ≤ maxChars
  sentences : sentenceCount text ≤ maxSentences

/-- Such a narrative is within limits as shortening counts, too. -/
lemma Short.fits (h : Short maxChars maxSentences text) : Fits text maxChars maxSentences := by
  have hsentences := h.sentences
  have hlength := h.length
  unfold sentenceCount at hsentences
  constructor <;> omega

lemma Short.of_fits (hpos : 0 < maxSentences) (hstrip : text.strip = text)
    (h : Fits text maxChars maxSentences) : Short maxChars maxSentences text := by
  obtain ⟨hlength, hcount⟩ := h
  refine ⟨hstrip, by omega, ?_⟩
  unfold sentenceCount
  omega

/-- What a narrative is shortened to starts it, and is within the limits. -/
lemma compactNarrative_short (hpos : 0 < maxSentences)
    (h : compactNarrative value maxChars maxSentences = .ok out) :
    out <+: value.strip ∧ Short maxChars maxSentences out := by
  rcases compactNarrative_eq_ok.mp h with ⟨hfits, rfl⟩ | ⟨-, before, last, hcut, rfl⟩
  · exact ⟨List.prefix_refl _, .of_fits hpos (PyStr.strip_strip value) hfits⟩
  · refine ⟨hcut.starts, .of_fits hpos ?_ ⟨?_, ?_⟩⟩
    · exact PyStr.strip_of_prefix hcut.starts (isSpace_of_isSentenceEnding hcut.ending)
    · have := hcut.short
      simpa using this
    · have hrank := hcut.rank
      rw [sentencesKept, if_pos (by omega)] at hrank
      omega

/-- A narrative within the limits is not shortened. -/
lemma Short.compactNarrative (h : Short maxChars maxSentences text) :
    compactNarrative text maxChars maxSentences = .ok text :=
  compactNarrative_eq_ok.mpr (.inl ⟨h.stripped.symm ▸ h.fits, h.stripped.symm⟩)

end Narratives

/-! ## Fields -/

section Fields

variable {maxChars maxSentences : ℕ} {fields out : Json.Fields}

/-- What shortening does with a field: a text becomes a piece that starts it, without the white
space around it, and is within the limits; anything else stays. -/
def Shortened (maxChars maxSentences : ℕ) (before after : Json) : Prop :=
  match before with
  | .str value => ∃ text, after = .str text ∧ text <+: value.strip ∧ Short maxChars maxSentences text
  | v => after = v

/-- A field that shortening leaves alone. -/
def ShortField (maxChars maxSentences : ℕ) (v : Json) : Prop :=
  ∀ text, v = .str text → Short maxChars maxSentences text

lemma Shortened.shortField {before after : Json} (h : Shortened maxChars maxSentences before after) :
    ShortField maxChars maxSentences after := by
  rintro text rfl
  unfold Shortened at h
  split at h
  · obtain ⟨text', htext, -, hshort⟩ := h
    cases htext
    exact hshort
  · next hne => exact absurd h.symm (hne text)

lemma get_congr {fields' : Json.Fields} {name : PyStr}
    (h : Dict.get? fields' name = Dict.get? fields name) : fields'.get name = fields.get name := by
  rw [Json.Fields.get, Json.Fields.getD, h, Json.Fields.get, Json.Fields.getD]

lemma get?_of_get {name : PyStr} {v : Json} (h : fields.get name = v) (hne : v ≠ .null) :
    Dict.get? fields name = some v := by
  unfold Json.Fields.get Json.Fields.getD at h
  cases hget : Dict.get? fields name with
  | none =>
    rw [hget] at h
    exact absurd h.symm hne
  | some w =>
    rw [hget] at h
    exact congrArg some h

lemma compactField_shortened {field : String} (hpos : 0 < maxSentences)
    (h : compactField maxChars maxSentences fields field = .ok out) :
    Shortened maxChars maxSentences (fields.get (py field)) (out.get (py field)) := by
  unfold compactField at h
  split at h
  · next value hvalue =>
    obtain ⟨text, htext, h⟩ := Except.bind_eq_ok.mp h
    cases h
    obtain ⟨hstarts, hshort⟩ := compactNarrative_short hpos htext
    rw [hvalue]
    refine ⟨text, ?_, hstarts, hshort⟩
    rw [Json.Fields.get, Json.Fields.getD, Dict.get?_set_self]
    rfl
  · next hne =>
    cases h
    unfold Shortened
    split
    · next value hvalue => exact absurd hvalue (hne value)
    · rfl

lemma compactField_self {field : String}
    (h : ShortField maxChars maxSentences (fields.get (py field))) :
    compactField maxChars maxSentences fields field = .ok fields := by
  unfold compactField
  split
  · next value hvalue =>
    rw [(h value hvalue).compactNarrative, Except.ok_bind,
      Dict.set_eq_self (get?_of_get hvalue (by simp))]
    rfl
  · rfl

/-- Shortening some fields shortens each of them, and leaves the others alone. -/
lemma foldlM_compactField {names : List String} (hpos : 0 < maxSentences) (hnames : names.Nodup)
    (h : names.foldlM (compactField maxChars maxSentences) fields = .ok out) :
    (∀ name ∈ names, Shortened maxChars maxSentences (fields.get (py name)) (out.get (py name))) ∧
      ∀ other, other ∉ names.map py → Dict.get? out other = Dict.get? fields other := by
  induction names generalizing fields with
  | nil =>
    cases h
    exact ⟨by simp, fun _ _ => rfl⟩
  | cons name names ih =>
    obtain ⟨hnotMem, hnames⟩ := List.nodup_cons.mp hnames
    rw [List.foldlM_cons] at h
    obtain ⟨mid, hmid, h⟩ := Except.bind_eq_ok.mp h
    obtain ⟨hrest, hframe⟩ := ih hnames h
    constructor
    · intro other hother
      rcases List.mem_cons.mp hother with rfl | hmem
      · have hsame := hframe (py other) (by simpa using hnotMem)
        rw [get_congr hsame]
        exact compactField_shortened hpos hmid
      · have hne : py other ≠ py name := by
          rw [Ne, py_inj]
          rintro rfl
          exact hnotMem hmem
        rw [← get_congr (get?_compactField hmid hne)]
        exact hrest other hmem
    · intro other hother
      rw [List.map_cons, List.mem_cons, not_or] at hother
      rw [hframe other hother.2, get?_compactField hmid hother.1]

/-- Fields within the limits are not shortened. -/
lemma foldlM_compactField_self {names : List String}
    (h : ∀ name ∈ names, ShortField maxChars maxSentences (fields.get (py name))) :
    names.foldlM (compactField maxChars maxSentences) fields = .ok fields := by
  induction names with
  | nil => rfl
  | cons name names ih =>
    rw [List.foldlM_cons, compactField_self (h name List.mem_cons_self), Except.ok_bind]
    exact ih fun other hother => h other (List.mem_cons_of_mem _ hother)

end Fields

/-! ## Findings -/

section Findings

variable {maxChars maxSentences : ℕ}

/-- What shortening does with a finding: its details are shortened, its other fields stay. -/
def ShortenedFinding (maxChars maxSentences : ℕ) (before after : Json) : Prop :=
  ∃ fields out : Json.Fields, before = .obj fields ∧ after = .obj out ∧
    (∀ field ∈ ["detail_zh", "detail_en"],
      Shortened maxChars maxSentences (fields.get (py field)) (out.get (py field))) ∧
    ∀ other, other ∉ ["detail_zh", "detail_en"].map py → Dict.get? out other = Dict.get? fields other

/-- A finding that shortening leaves alone. -/
def ShortFinding (maxChars maxSentences : ℕ) (finding : Json) : Prop :=
  ∃ fields : Json.Fields, finding = .obj fields ∧
    ∀ field ∈ ["detail_zh", "detail_en"], ShortField maxChars maxSentences (fields.get (py field))

lemma compactFinding_shortened {finding out : Json} (hpos : 0 < maxSentences)
    (h : compactFinding maxChars maxSentences finding = .ok out) :
    ShortenedFinding maxChars maxSentences finding out := by
  cases finding with
  | obj fields =>
    obtain ⟨fields', hfields, h⟩ := Except.bind_eq_ok.mp h
    cases h
    obtain ⟨hdetails, hframe⟩ := foldlM_compactField hpos (by decide) hfields
    exact ⟨fields, fields', rfl, rfl, hdetails, hframe⟩
  | null | bool | int | float | str | arr => exact absurd h Except.throw_ne_ok

lemma ShortenedFinding.short {before after : Json}
    (h : ShortenedFinding maxChars maxSentences before after) :
    ShortFinding maxChars maxSentences after := by
  obtain ⟨fields, out, -, rfl, hdetails, -⟩ := h
  exact ⟨out, rfl, fun field hfield => (hdetails field hfield).shortField⟩

lemma compactFinding_self {finding : Json} (h : ShortFinding maxChars maxSentences finding) :
    compactFinding maxChars maxSentences finding = .ok finding := by
  obtain ⟨fields, rfl, hdetails⟩ := h
  rw [compactFinding, foldlM_compactField_self hdetails]
  rfl

lemma mapM_compactFinding_self {items : List Json}
    (h : ∀ x ∈ items, ShortFinding maxChars maxSentences x) :
    items.mapM (compactFinding maxChars maxSentences) = .ok items := by
  rw [Except.mapM_eq_ok, List.forall₂_same]
  exact fun x hx => compactFinding_self (h x hx)

end Findings

/-! ## Results -/

section Results

variable {result out : Json.Fields} {limit : PyStr × ℕ × ℕ}

/-- A group that shortening leaves alone: every finding of a list is within the limits, and there
is nothing to go through in anything else. -/
def SettledGroup (limits : ℕ × ℕ) : Option Json → Prop
  | none => True
  | some (.arr items) => ∀ x ∈ items, ShortFinding limits.1 limits.2 x
  | some v => v.iter = .ok []

lemma compactGroup_settled (hpos : 0 < limit.2.2) (h : compactGroup result limit = .ok out) :
    List.Forall₂ (ShortenedFinding limit.2.1 limit.2.2) (groupItems result limit.1)
        (groupItems out limit.1) ∧
      SettledGroup limit.2 (Dict.get? out limit.1) := by
  unfold compactGroup at h
  split at h
  · next hget =>
    cases h
    have hitems : groupItems result limit.1 = [] := by
      rw [groupItems, Json.Fields.get, Json.Fields.getD, hget]
      rfl
    rw [hitems, hget]
    exact ⟨.nil, trivial⟩
  · next items hget =>
    obtain ⟨items', hitems', h⟩ := Except.bind_eq_ok.mp h
    cases h
    have hshort : List.Forall₂ (ShortenedFinding limit.2.1 limit.2.2) items items' :=
      (Except.mapM_eq_ok.mp hitems').imp fun _ _ => compactFinding_shortened hpos
    constructor
    · rw [groupItems, Json.Fields.get, Json.Fields.getD, hget, groupItems, Json.Fields.get,
        Json.Fields.getD, Dict.get?_set_self]
      exact hshort
    · rw [Dict.get?_set_self]
      intro x hx
      obtain ⟨y, -, hyx⟩ := hshort.exists_left hx
      exact hyx.short
  · next v hne hget =>
    obtain ⟨elements, hiter, h⟩ := Except.bind_eq_ok.mp h
    cases elements with
    | cons x rest => exact absurd h Except.throw_ne_ok
    | nil =>
      cases h
      have hitems : groupItems result limit.1 = [] := by
        rw [groupItems, Json.Fields.get, Json.Fields.getD, hget]
        cases v with
        | arr items => exact absurd rfl (hne items)
        | null | bool | int | float | str | obj => rfl
      rw [hitems, hget]
      refine ⟨.nil, ?_⟩
      cases v with
      | arr items => exact absurd rfl (hne items)
      | null | bool | int | float | str | obj => exact hiter

lemma compactGroup_self (h : SettledGroup limit.2 (Dict.get? result limit.1)) :
    compactGroup result limit = .ok result := by
  unfold compactGroup
  split
  · rfl
  · next items hget =>
    rw [hget] at h
    rw [mapM_compactFinding_self h, Except.ok_bind, Dict.set_eq_self hget]
    rfl
  · next v hne hget =>
    rw [hget] at h
    have hiter : v.iter = .ok [] := by
      cases v with
      | arr items => exact absurd rfl (hne items)
      | null | bool | int | float | str | obj => exact h
    rw [hiter]
    rfl

/-- A settled group has no finding that is not within the limits. -/
lemma SettledGroup.placed {limits : ℕ × ℕ} {name : PyStr} {items : List (Json.Fields × ℕ)}
    (h : SettledGroup limits (Dict.get? result name)) (hitems : placedFindings result name = .ok items)
    {item : Json.Fields × ℕ} (hitem : item ∈ items) {field : String}
    (hfield : field ∈ ["detail_zh", "detail_en"]) :
    ShortField limits.1 limits.2 (item.1.get (py field)) := by
  obtain ⟨elements, helements, hmap⟩ := Except.bind_eq_ok.mp hitems
  cases hmap
  obtain ⟨placed, hplaced, hsome⟩ := List.mem_filterMap.mp hitem
  have hmem := List.fst_mem_of_mem_zipIdx hplaced
  have hobj : placed.1 = .obj item.1 := by
    split at hsome
    · next fields hfields =>
      cases hsome
      exact hfields
    · cases hsome
  obtain ⟨xs, hxs, hx⟩ := Json.mem_of_iter_or helements hmem (by rw [hobj]; rfl)
  rw [get?_of_get hxs (by simp)] at h
  obtain ⟨fields, hfields, hdetails⟩ := h _ hx
  rw [hobj] at hfields
  cases hfields
  exact hdetails field hfield

/-! ### The checks without upper limits -/

variable (env : Env)

/-- The check of a summary, of any length and any number of sentences from two. -/
def validateSummaryUnlimited (label : PyStr) (result : Json.Fields) (field : String) :
    Except PyError Unit := do
  let path := label ++ py "." ++ py field
  match result.get (py field) with
  | .str value =>
    refuse (!notBlank value) (path ++ py " must be a non-empty string")
    validateNarrativeCompletion env value path
    let count := sentenceCount value
    refuse (!decide (2 ≤ count))
      (path ++ py " must contain 2-4 concise sentences; got " ++ .ofNat count)
  | _ => throw (outputValidationError (path ++ py " must be a non-empty string"))

/-- The check of a detail, of any length and any number of sentences. -/
def validateDetailUnlimited (path : PyStr) (finding : Json.Fields) (field : String) :
    Except PyError Unit :=
  match finding.get (py field) with
  | .str value => validateNarrativeCompletion env value (path ++ py "." ++ py field)
  | _ => return

/-- The checks of the details, of any length and any number of sentences. -/
def validateDensityUnlimited (label : PyStr) (result : Json.Fields) : Except PyError Unit :=
  groupNames.forM fun name => do
    let items ← placedFindings result name
    items.forM fun (finding, index) =>
      ["detail_zh", "detail_en"].forM
        (validateDetailUnlimited env (findingPath label name index) finding)

/-- `validate_log_triage_result` without the upper limits of the narratives. -/
def validateUnlimited (label : PyStr) (result : Json.Fields) : Except PyError Unit := do
  match natural (result.get (py "total_entries")) with
  | none => throw (outputValidationError
      (label ++ py ".total_entries must be a non-negative integer"))
  | some total =>
    ["summary_zh", "summary_en"].forM (validateSummaryUnlimited env label result)
    let _ ← groupNames.foldlM (validateGroup env label total result) ⟨[], []⟩
    validateDensityUnlimited env label result
    validateRepetition env label result
    validateCausationLanguage env label result

variable {env}

lemma refuse_false (message : PyStr) : refuse false message = .ok () := rfl

lemma validateSummary_unlimited {label : PyStr} {field : String}
    (h : ShortField 800 4 (result.get (py field))) :
    validateSummary env label result field = validateSummaryUnlimited env label result field := by
  unfold validateSummary validateSummaryUnlimited
  cases hvalue : result.get (py field) with
  | str value =>
    obtain ⟨-, hlength, hsentences⟩ := h value hvalue
    have hshort : decide (800 < value.length) = false := by simpa using hlength
    have hfew : decide (sentenceCount value ≤ 4) = true := by simpa using hsentences
    simp only [hshort, hfew, refuse_false, Except.ok_bind, Bool.and_true]
  | null | bool | int | float | arr | obj => rfl

lemma validateDetail_unlimited {path name : PyStr} {limits : ℕ × ℕ} {finding : Json.Fields}
    {field : String} (h : ShortField limits.1 limits.2 (finding.get (py field))) :
    validateDetail env path name limits.1 limits.2 finding field =
      validateDetailUnlimited env path finding field := by
  unfold validateDetail validateDetailUnlimited
  cases hvalue : finding.get (py field) with
  | str value =>
    obtain ⟨-, hlength, hsentences⟩ := h value hvalue
    have hshort : decide (limits.1 < value.length) = false := by simpa using hlength
    have hfew : decide (limits.2 < sentenceCount value) = false := by simpa using hsentences
    simp only [hshort, hfew, refuse_false, Except.ok_bind]
  | null | bool | int | float | arr | obj => rfl

lemma forM_congr {α : Type} {f g : α → Except PyError Unit} {xs : List α}
    (h : ∀ x ∈ xs, f x = g x) : xs.forM f = xs.forM g := by
  induction xs with
  | nil => rfl
  | cons x xs ih =>
    show (f x >>= fun _ => xs.forM f) = (g x >>= fun _ => xs.forM g)
    rw [h x List.mem_cons_self, ih fun y hy => h y (List.mem_cons_of_mem _ hy)]

/-- The groups have the limits of the checks. -/
lemma settled_of_detailLimits
    (h : ∀ limit ∈ narrativeLimits, SettledGroup limit.2 (Dict.get? result limit.1)) :
    ∀ limit ∈ detailLimits, SettledGroup limit.2 (Dict.get? result limit.1) := h

lemma validateDensity_unlimited {label : PyStr}
    (h : ∀ limit ∈ detailLimits, SettledGroup limit.2 (Dict.get? result limit.1)) :
    validateFindingDetailDensity env label result = validateDensityUnlimited env label result := by
  have hnames : validateDensityUnlimited env label result = detailLimits.forM fun limit =>
      placedFindings result limit.1 >>= fun items => items.forM fun item =>
        ["detail_zh", "detail_en"].forM
          (validateDetailUnlimited env (findingPath label limit.1 item.2) item.1) := rfl
  rw [hnames, validateFindingDetailDensity]
  refine forM_congr fun limit hlimit => ?_
  obtain ⟨name, limits⟩ := limit
  dsimp only
  cases hitems : placedFindings result name with
  | error e => rfl
  | ok items =>
    rw [Except.ok_bind, Except.ok_bind]
    exact forM_congr fun item hitem => forM_congr fun field hfield =>
      validateDetail_unlimited ((h (name, limits) hlimit).placed hitems hitem hfield)

/-- The upper limits of the narratives refuse nothing in a result whose narratives are short. -/
lemma validateLogTriageResult_unlimited (label : PyStr)
    (hsummaries : ∀ field ∈ ["summary_zh", "summary_en"], ShortField 800 4 (result.get (py field)))
    (hgroups : ∀ limit ∈ detailLimits, SettledGroup limit.2 (Dict.get? result limit.1)) :
    validateLogTriageResult env label result = validateUnlimited env label result := by
  have hsummary : ["summary_zh", "summary_en"].forM (validateSummary env label result) =
      ["summary_zh", "summary_en"].forM (validateSummaryUnlimited env label result) :=
    forM_congr fun field hfield => validateSummary_unlimited (hsummaries field hfield)
  unfold validateLogTriageResult validateUnlimited
  cases natural (result.get (py "total_entries")) with
  | none => rfl
  | some total =>
    dsimp only
    rw [hsummary, validateDensity_unlimited hgroups]

/-! ### The whole -/

/-- Shortening agrees with the checks. -/
structure CompactionAgrees (result out : Json.Fields) : Prop where
  /-- each summary starts the summary it was, and is within the limits -/
  summaries : ∀ field ∈ ["summary_zh", "summary_en"],
    Shortened 800 4 (result.get (py field)) (out.get (py field))
  /-- so does each detail, with the limits the checks have for its group -/
  details : ∀ limit ∈ detailLimits,
    List.Forall₂ (ShortenedFinding limit.2.1 limit.2.2) (groupItems result limit.1)
      (groupItems out limit.1)
  /-- the checks accept and refuse as if there were no limits -/
  unlimited : ∀ env label, validateLogTriageResult env label out = validateUnlimited env label out
  /-- shortening again changes nothing -/
  settled : compactLogTriageNarrative out = .ok out

/-- **Shortening agrees with the checks.** Every narrative of a result that has been shortened is
a piece that starts the narrative it was, within the limits the checks enforce, which therefore
refuse nothing in it; and shortening it again changes nothing. -/
theorem compactLogTriageNarrative_agrees (h : compactLogTriageNarrative result = .ok out) :
    CompactionAgrees result out := by
  obtain ⟨summarized, hsummarized, h⟩ := Except.bind_eq_ok.mp h
  rw [narrativeLimits, List.foldlM_cons] at h
  obtain ⟨mid, hmid, h⟩ := Except.bind_eq_ok.mp h
  rw [List.foldlM_cons] at h
  obtain ⟨last, hlast, h⟩ := Except.bind_eq_ok.mp h
  cases h
  obtain ⟨hshortened, -⟩ := foldlM_compactField (by decide) (by decide) hsummarized
  obtain ⟨hkey, hkeySettled⟩ := compactGroup_settled (by decide) hmid
  obtain ⟨hsecondary, hsecondarySettled⟩ := compactGroup_settled (by decide) hlast
  -- the steps change different fields
  have hsummary : ∀ field ∈ ["summary_zh", "summary_en"],
      out.get (py field) = summarized.get (py field) := by
    intro field hfield
    have hne : ∀ name ∈ groupNames, py field ≠ name := by
      revert field
      decide
    exact get_congr ((get?_compactGroup hlast (hne _ (by decide))).trans
      (get?_compactGroup hmid (hne _ (by decide))))
  have hkeyKept : Dict.get? out (py "key_finds") = Dict.get? mid (py "key_finds") :=
    get?_compactGroup hlast (by decide)
  have hsecondaryKept : Dict.get? mid (py "secondary_finds") =
      Dict.get? summarized (py "secondary_finds") := get?_compactGroup hmid (by decide)
  have hgroups : ∀ limit ∈ narrativeLimits, SettledGroup limit.2 (Dict.get? out limit.1) := by
    intro limit hlimit
    simp only [narrativeLimits, List.mem_cons, List.not_mem_nil, or_false] at hlimit
    rcases hlimit with rfl | rfl
    · exact hkeyKept ▸ hkeySettled
    · exact hsecondarySettled
  have hshort : ∀ field ∈ ["summary_zh", "summary_en"], ShortField 800 4 (out.get (py field)) :=
    fun field hfield => hsummary field hfield ▸ (hshortened field hfield).shortField
  refine ⟨fun field hfield => hsummary field hfield ▸ hshortened field hfield, ?_,
    fun env label => validateLogTriageResult_unlimited label hshort hgroups, ?_⟩
  · intro limit hlimit
    simp only [detailLimits, List.mem_cons, List.not_mem_nil, or_false] at hlimit
    rcases hlimit with rfl | rfl
    · have hbefore := groupItems_congr (get_congr (get?_compactSummaries hsummarized
        (show py "key_finds" ∈ groupNames by decide)))
      have hafter := groupItems_congr (get_congr hkeyKept)
      exact hbefore ▸ hafter ▸ hkey
    · have hbefore := groupItems_congr (get_congr (hsecondaryKept.trans
        (get?_compactSummaries hsummarized (by decide))))
      exact hbefore ▸ hsecondary
  · rw [compactLogTriageNarrative, compactSummaries, foldlM_compactField_self hshort, Except.ok_bind,
      narrativeLimits, List.foldlM_cons, compactGroup_self (hgroups _ (by decide)), Except.ok_bind,
      List.foldlM_cons, compactGroup_self (hgroups _ (by decide))]
    rfl

/-- A result that says too much. -/
def verboseResult : Json.Fields :=
  [(py "summary_en", .str (py " One. Two. Three. Four. Five. ")),
    (py "key_finds", .arr [.obj [(py "detail_en", .str (py "A. B! C? D."))]]),
    (py "secondary_finds", .arr [.obj [(py "detail_en", .str (py "A"))]])]

/-- What is left of it. -/
def verboseShortened : Json.Fields :=
  [(py "summary_en", .str (py "One. Two. Three. Four.")),
    (py "key_finds", .arr [.obj [(py "detail_en", .str (py "A. B! C?"))]]),
    (py "secondary_finds", .arr [.obj [(py "detail_en", .str (py "A"))]])]

lemma compactLogTriageNarrative_verboseResult :
    compactLogTriageNarrative verboseResult = .ok verboseShortened := by
  rfl

/-- Shortening agrees with the checks about that result. -/
theorem verboseResult_agrees : CompactionAgrees verboseResult verboseShortened :=
  compactLogTriageNarrative_agrees compactLogTriageNarrative_verboseResult

end Results

end Triage
