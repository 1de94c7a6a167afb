import NocReport.Triage.EntryPartition

set_option relaxedAutoImplicit false
set_option autoImplicit false

/-!
# Entries of one pattern

An entry is filed under a pattern, the normalised message, and under a cause family, which is read
off the line itself. Reconciliation by entries expands what a finding names by family, so the
entries of one pattern stay together when their families do.

## Main definitions

* `Triage.patternAt`, `Triage.familyAt` — the pattern and the family of an entry of a log.
* `Triage.Statistics.recordedFamily` — the family on record for a pattern.
* `Triage.OneFamilyPerPattern` — the lines of a log with one pattern have one family.
* `Triage.OneOwner` — what decides whether two entries come to one finding.
* `Triage.InOneFinding`, `Triage.PatternsTogether` — entries in one finding, and entries of one
  pattern always so.

## Main results

* `Triage.preprocessLog_files` — the manifest files every line under its pattern and family.
* `Triage.inOneFinding_iff` — which entries come to one finding.
* `Triage.patternsTogether_iff` — when entries of one pattern do.
-/

namespace Triage

/-! ## How the lines of a log are filed -/

/-- The entry is filed under the pattern and the family of the line. -/
structure FiledAs (env : Env) (line : LogEntry) (e : Entry) : Prop where
  pattern : linePattern env line = .ok e.patternId
  family : ∃ family, lineFamily env line = .ok family ∧ e.familyId = some family.1

/-- The family `pattern_families` has for a pattern, read off the families of the statistics. -/
def Statistics.recordedFamily (st : Statistics) (patternId : PyStr) : Option PyStr :=
  (st.patternFamilies.find? fun f => f.patternIds.contains patternId).map (·.id)

/-- The books after some lines: each of them is filed, and the family on record for a pattern is
that of an entry of it. -/
structure Tally.Files (env : Env) (seen : List LogEntry) (t : Tally) : Prop where
  manifest : List.Forall₂ (FiledAs env) seen t.entryManifest
  keys : Dict.keys t.patternFamilies = Dict.keys t.patternCounts
  counted : ∀ e ∈ t.entryManifest, e.patternId ∈ Dict.keys t.patternCounts
  recorded : ∀ patternId family, Dict.get? t.patternFamilies patternId = some family →
    ∃ e ∈ t.entryManifest, e.patternId = patternId ∧ e.familyId = some family.1

lemma Tally.files_empty (env : Env) : Tally.empty.Files env [] where
  manifest := .nil
  keys := rfl
  counted := by
    intro e he
    cases he
  recorded := by
    intro patternId family h
    cases h

section Files

variable {env : Env} {t t' : Tally} {st : Statistics}

/-- One turn of the loop files its line. -/
lemma tallyEntry_files {maxSamples n : ℕ} {seen : List LogEntry} {line : LogEntry}
    (ht : t.Files env seen) (h : tallyEntry env maxSamples t (n, line) = .ok t') :
    t'.Files env (seen ++ [line]) := by
  obtain ⟨e, family, -, -, hpattern, hlabel, hfamily, hmanifest, hcounts, hfamilies⟩ :=
    tallyEntry_frame h
  refine ⟨?_, ?_, ?_, ?_⟩
  · rw [hmanifest]
    exact List.rel_append ht.manifest (.cons ⟨hpattern, family, hlabel, hfamily⟩ .nil)
  · rw [hfamilies, hcounts, Counter.add, Dict.keys_set, Dict.keys_set, ht.keys]
  · intro e' he'
    rw [hcounts, Counter.add, Dict.mem_keys_set]
    rw [hmanifest, List.mem_append, List.mem_singleton] at he'
    rcases he' with he' | rfl
    · exact .inr (ht.counted e' he')
    · exact .inl rfl
  · intro patternId family' h
    rw [hfamilies, Dict.get?_set] at h
    rw [hmanifest]
    split at h
    · next hsame =>
      cases h
      exact ⟨e, by simp, hsame.symm, hfamily⟩
    · obtain ⟨e', he', hrest⟩ := ht.recorded patternId family' h
      exact ⟨e', List.mem_append_left _ he', hrest⟩

/-- After the loop all lines are filed. -/
lemma tallyEntries_files {maxSamples : ℕ} {items seen : List LogEntry} {n : ℕ}
    (ht : t.Files env seen)
    (h : ((List.range' n items.length).zip items).foldlM (tallyEntry env maxSamples) t = .ok t') :
    t'.Files env (seen ++ items) := by
  induction items generalizing t n seen with
  | nil =>
    rw [List.zip_nil_right, List.foldlM_nil, Except.pure_eq_ok] at h
    rw [List.append_nil]
    exact h ▸ ht
  | cons item items ih =>
    rw [List.length_cons, List.range'_succ, List.zip_cons_cons, List.foldlM_cons] at h
    obtain ⟨t₁, ht₁, h⟩ := Except.bind_eq_ok.mp h
    have hrest := ih (tallyEntry_files ht ht₁) h
    rwa [List.append_assoc, List.singleton_append] at hrest

/-- A pattern belongs to the family it has on record, and to no other. -/
lemma Tally.mem_families {f : Family} (hf : f ∈ t.families) {patternId : PyStr} :
    patternId ∈ f.patternIds ↔ patternId ∈ Dict.keys t.patternCounts ∧
      (Dict.getD t.patternFamilies patternId ([], [])).1 = f.id := by
  rw [Tally.families, List.mem_insertionSort, List.mem_map] at hf
  obtain ⟨⟨family, ids⟩, hgroup, rfl⟩ := hf
  have hids := Dict.eq_filter_of_mem_groupBy
    (fun pid => (Dict.getD t.patternFamilies pid ([], [])).1) hgroup
  dsimp only
  rw [hids]
  simp

lemma Tally.exists_mem_families (t : Tally) {patternId : PyStr}
    (h : patternId ∈ Dict.keys t.patternCounts) : ∃ f ∈ t.families, patternId ∈ f.patternIds := by
  obtain ⟨ids, hgroup, hids⟩ := Dict.exists_mem_groupBy
    (fun pid => (Dict.getD t.patternFamilies pid ([], [])).1) h
  obtain ⟨f, hf, rfl⟩ : ∃ f ∈ t.families, f.patternIds = ids := by
    simp only [Tally.families, List.mem_insertionSort]
    exact ⟨_, List.mem_map_of_mem hgroup, rfl⟩
  exact ⟨f, hf, hids⟩

/-- The family on record for a pattern of the log is that of an entry of it. -/
lemma Tally.Files.recordedFamily_spec {seen : List LogEntry} (ht : t.Files env seen)
    (hmanifest : st.entryManifest = t.entryManifest) (hfamilies : st.patternFamilies = t.families)
    {e : Entry} (he : e ∈ st.entryManifest) :
    ∃ e' ∈ st.entryManifest, e'.patternId = e.patternId ∧
      st.recordedFamily e.patternId = e'.familyId := by
  rw [hmanifest] at he ⊢
  have hkey := ht.counted e he
  obtain ⟨family, hfamily⟩ : ∃ family, Dict.get? t.patternFamilies e.patternId = some family := by
    rw [← Option.ne_none_iff_exists', ne_eq, Dict.get?_eq_none_iff, ht.keys, not_not]
    exact hkey
  obtain ⟨e', he', hpattern, hlabel⟩ := ht.recorded _ _ hfamily
  refine ⟨e', he', hpattern, ?_⟩
  rw [hlabel, Statistics.recordedFamily, hfamilies]
  have hrecord : (Dict.getD t.patternFamilies e.patternId ([], [])).1 = family.1 := by
    rw [Dict.getD, hfamily]
    rfl
  cases hfind : t.families.find? fun f => f.patternIds.contains e.patternId with
  | none =>
    obtain ⟨f, hf, hmem⟩ := t.exists_mem_families hkey
    have hnot := List.find?_eq_none.mp hfind f hf
    simp [hmem] at hnot
  | some f =>
    have hmem : e.patternId ∈ f.patternIds := by simpa using List.find?_some hfind
    obtain ⟨-, hid⟩ := (t.mem_families (List.mem_of_find?_eq_some hfind)).mp hmem
    rw [Option.map_some, ← hid, hrecord]

/-- **How a log is filed.** The manifest files every line under its pattern and its family, and
the family on record for the pattern of an entry is that of an entry of the pattern. -/
theorem preprocessLog_files {logText : PyStr} (h : preprocessLog env logText = .ok st) :
    ∃ lines, entries env logText = .ok lines ∧
      List.Forall₂ (FiledAs env) lines st.entryManifest ∧
      ∀ e ∈ st.entryManifest, ∃ e' ∈ st.entryManifest, e'.patternId = e.patternId ∧
        st.recordedFamily e.patternId = e'.familyId := by
  obtain ⟨lines, hlines, h⟩ := Except.bind_eq_ok.mp h
  obtain ⟨t, ht, h⟩ := Except.bind_eq_ok.mp h
  obtain ⟨first, -, h⟩ := Except.bind_eq_ok.mp h
  obtain ⟨last, -, h⟩ := Except.bind_eq_ok.mp h
  rw [Except.pure_eq_ok] at h
  subst h
  rw [List.range_eq_range'] at ht
  have hfiles := tallyEntries_files (Tally.files_empty env) ht
  exact ⟨lines, hlines, hfiles.manifest, fun e he => hfiles.recordedFamily_spec rfl rfl he⟩

end Files

/-! ## The pattern and the family of an entry -/

/-- The lines of a log. -/
def logLines (env : Env) (logText : PyStr) : List LogEntry :=
  (entries env logText).toOption.getD []

/-- The pattern of the line at a position. -/
def patternAt (env : Env) (lines : List LogEntry) (i : ℕ) : Option PyStr :=
  lines[i]?.bind fun line => (linePattern env line).toOption

/-- The family of the line at a position. -/
def familyAt (env : Env) (lines : List LogEntry) (i : ℕ) : Option PyStr :=
  lines[i]?.bind fun line => (lineFamily env line).toOption.map (·.1)

/-- The lines of a log with one pattern have one family. -/
def OneFamilyPerPattern (env : Env) (lines : List LogEntry) : Prop :=
  ∀ i j, i < lines.length → j < lines.length → patternAt env lines i = patternAt env lines j →
    familyAt env lines i = familyAt env lines j

section Lines

variable {env : Env} {st : Statistics} {logText : PyStr}

/-- The entries are at the positions of their ids. -/
lemma id_of_getElem? (hst : st.WellFormed) {k : ℕ} {e : Entry}
    (h : st.entryManifest[k]? = some e) : e.id = k := by
  have hids : (st.entryManifest.map (·.id))[k]? = (List.range st.totalEntries)[k]? := by
    rw [hst.ids]
  rw [List.getElem?_map, h, Option.map_some] at hids
  obtain ⟨hk, hval⟩ := List.getElem?_eq_some_iff.mp hids.symm
  rw [List.getElem_range] at hval
  exact hval.symm

lemma exists_of_lt (hst : st.WellFormed) {i : ℕ} (h : i < st.totalEntries) :
    ∃ e ∈ st.entryManifest, e.id = i := by
  obtain ⟨e, he⟩ := exists_entry hst h
  exact ⟨e, entryById_eq_some hst he⟩

/-- The manifest has a line of the log at its position, under its pattern and its family. -/
lemma at_of_mem_manifest {lines : List LogEntry} (hst : st.WellFormed)
    (hfiles : List.Forall₂ (FiledAs env) lines st.entryManifest) {e : Entry}
    (he : e ∈ st.entryManifest) :
    patternAt env lines e.id = some e.patternId ∧ familyAt env lines e.id = e.familyId := by
  obtain ⟨⟨k, hk⟩, rfl⟩ := List.mem_iff_get.mp he
  have hline : k < lines.length := hfiles.length_eq ▸ hk
  have hid : (st.entryManifest.get ⟨k, hk⟩).id = k :=
    id_of_getElem? hst (by rw [List.get_eq_getElem, List.getElem?_eq_getElem hk])
  obtain ⟨hpattern, family, hlabel, hfamily⟩ := hfiles.get hline hk
  rw [List.get_eq_getElem] at hpattern hlabel
  rw [hid, patternAt, familyAt, List.getElem?_eq_getElem hline, hfamily]
  simp [hpattern, hlabel, Except.toOption]

/-- What holds of the positions of all lines with one pattern holds of all entries of one
pattern. -/
lemma forall_samePattern_iff {lines : List LogEntry} (hst : st.WellFormed)
    (hfiles : List.Forall₂ (FiledAs env) lines st.entryManifest) (R : ℕ → ℕ → Prop) :
    (∀ i j, i < lines.length → j < lines.length → patternAt env lines i = patternAt env lines j →
      R i j) ↔
      ∀ a ∈ st.entryManifest, ∀ b ∈ st.entryManifest, a.patternId = b.patternId →
        R a.id b.id := by
  have hlength : lines.length = st.totalEntries := by
    rw [hfiles.length_eq, ← List.length_map (·.id), hst.ids, List.length_range]
  rw [hlength]
  constructor
  · intro h a ha b hb hpattern
    refine h a.id b.id (lt_of_mem_manifest hst ha) (lt_of_mem_manifest hst hb) ?_
    rw [(at_of_mem_manifest hst hfiles ha).1, (at_of_mem_manifest hst hfiles hb).1, hpattern]
  · intro h i j hi hj hpattern
    obtain ⟨a, ha, rfl⟩ := exists_of_lt hst hi
    obtain ⟨b, hb, rfl⟩ := exists_of_lt hst hj
    rw [(at_of_mem_manifest hst hfiles ha).1, (at_of_mem_manifest hst hfiles hb).1,
      Option.some.injEq] at hpattern
    exact h a ha b hb hpattern

/-- The family on record is the one of every entry exactly when the lines of one pattern have one
family. -/
lemma recordedFamily_iff {lines : List LogEntry} (hst : st.WellFormed)
    (hfiles : List.Forall₂ (FiledAs env) lines st.entryManifest)
    (hrecorded : ∀ e ∈ st.entryManifest, ∃ e' ∈ st.entryManifest, e'.patternId = e.patternId ∧
      st.recordedFamily e.patternId = e'.familyId) :
    (∀ e ∈ st.entryManifest, e.familyId = st.recordedFamily e.patternId) ↔
      OneFamilyPerPattern env lines := by
  rw [OneFamilyPerPattern, forall_samePattern_iff hst hfiles
    fun i j => familyAt env lines i = familyAt env lines j]
  constructor
  · intro h a ha b hb hpattern
    rw [(at_of_mem_manifest hst hfiles ha).2, (at_of_mem_manifest hst hfiles hb).2, h a ha, h b hb,
      hpattern]
  · intro h e he
    obtain ⟨e', he', hpattern, hrecord⟩ := hrecorded e he
    rw [hrecord, ← (at_of_mem_manifest hst hfiles he).2, ← (at_of_mem_manifest hst hfiles he').2]
    exact h e he e' he' hpattern.symm

end Lines

/-! ## What comes to one finding -/

/-- A finding names an entry of the family of entry `i`. -/
def NamesFamily (family : ℕ → Option PyStr) (finding : Json) (i : ℕ) : Prop :=
  ∃ k : ℕ, (k : ℤ) ∈ evidenceIds finding ∧ family k = family i

/-- No finding names an entry of the family of entry `i`, and the family has no presentation. -/
def Spare (family : ℕ → Option PyStr) (found : List Json) (i : ℕ) : Prop :=
  (∀ finding ∈ found, ¬ NamesFamily family finding i) ∧
    ∀ name, family i = some name → presentationOf name = none

/-- Entries `i` and `j` are of one family, or a finding names entries of both families, or nothing
is made of either family. -/
def OneOwner (family : ℕ → Option PyStr) (found : List Json) (i j : ℕ) : Prop :=
  family i = family j ∨
    (∃ finding ∈ found, NamesFamily family finding i ∧ NamesFamily family finding j) ∨
    (Spare family found i ∧ Spare family found j)

/-- A finding has both entries. -/
def InOneFinding (found : List Json) (i j : ℕ) : Prop :=
  ∃ finding ∈ found, (i : ℤ) ∈ evidenceIds finding ∧ (j : ℤ) ∈ evidenceIds finding

/-- Any two entries of one pattern are in one finding. -/
def PatternsTogether (st : Statistics) (found : List Json) : Prop :=
  ∀ a ∈ st.entryManifest, ∀ b ∈ st.entryManifest, a.patternId = b.patternId →
    InOneFinding found a.id b.id

section Together

variable {env : Env} {st : Statistics} {family : ℕ → Option PyStr}

lemma NamesFamily.congr {finding : Json} {i j : ℕ} (h : family i = family j) :
    NamesFamily family finding i ↔ NamesFamily family finding j := by
  rw [NamesFamily, NamesFamily, h]

/-- A list whose elements are all read as integers has no others. -/
lemma readInts {items : List Json} {ints : List ℤ} {e : PyError}
    (h : items.mapM (fun v => match asInt v with
      | some i => pure i
      | none => throw e) = (.ok ints : Except PyError (List ℤ))) : ints = items.filterMap asInt := by
  have hall := Except.mapM_eq_ok.mp h
  clear h
  induction hall with
  | nil => rfl
  | @cons v i items ints hv _ ih =>
    split at hv
    · next k hk =>
      rw [Except.pure_eq_ok] at hv
      rw [List.filterMap_cons, hk, ← hv, ← ih]
    · exact absurd hv Except.throw_ne_ok

/-- The entries a finding names are those that are read off it. -/
lemma mem_readEntryIds {finding : Json.Fields} {ids : List ℕ}
    (h : readEntryIds st (finding.get (py "evidence_entry_ids")) = .ok ids) {i : ℕ} :
    i ∈ ids ↔ (i : ℤ) ∈ evidenceIds (.obj finding) := by
  unfold readEntryIds at h
  dsimp only at h
  split at h
  · next items hitems =>
    obtain ⟨items', hitems', h⟩ := Except.bind_eq_ok.mp h
    rw [Except.pure_eq_ok] at hitems'
    subst hitems'
    obtain ⟨raws, hraws, h⟩ := Except.bind_eq_ok.mp h
    rw [evidenceIds, field_obj, hitems]
    dsimp only
    rw [← readInts hraws]
    constructor
    · intro hi
      obtain ⟨k, hk, hknown⟩ := Except.mem_of_mapM_eq_ok h hi
      split at hknown
      · next hpos =>
        rw [Except.pure_eq_ok] at hknown
        rwa [← hknown, Int.toNat_of_nonneg hpos.1, ← List.mem_eraseDups]
      · exact absurd hknown Except.throw_ne_ok
    · intro hi
      obtain ⟨k, hk, hknown⟩ := Except.exists_of_mapM_eq_ok h (List.mem_eraseDups.mpr hi)
      split at hknown
      · rw [Except.pure_eq_ok, Int.toNat_natCast] at hknown
        exact hknown ▸ hk
      · exact absurd hknown Except.throw_ne_ok
  · obtain ⟨items, hitems, -⟩ := Except.bind_eq_ok.mp h
    exact absurd hitems Except.throw_ne_ok

/-- What some entries are expanded to, by the families at the positions. -/
lemma mem_expandIds_family (hst : st.WellFormed)
    (hfamily : ∀ e ∈ st.entryManifest, family e.id = e.familyId) {claimed ids : List ℕ}
    (hknown : ∀ i ∈ ids, i < st.totalEntries) {id : ℕ} :
    id ∈ expandIds st claimed ids ↔
      id ∉ claimed ∧ id < st.totalEntries ∧ ∃ i ∈ ids, family i = family id := by
  rw [mem_expandIds hst]
  refine and_congr_right fun _ => ?_
  constructor
  · rintro ⟨i, hi, e, he, rfl, e', he', hsame, rfl⟩
    exact ⟨lt_of_mem_manifest hst he', e.id, hi, by rw [hfamily e he, hfamily e' he', hsame]⟩
  · rintro ⟨hid, i, hi, hsame⟩
    obtain ⟨e, he, rfl⟩ := exists_of_lt hst (hknown i hi)
    obtain ⟨e', he', rfl⟩ := exists_of_lt hst hid
    rw [hfamily e he, hfamily e' he'] at hsame
    exact ⟨e.id, hi, e, he, rfl, e', he', hsame.symm, rfl⟩

/-- A finding gets the entries of the families it names, and no others. -/
def Grown (n : ℕ) (family : ℕ → Option PyStr) (finding finding' : Json) : Prop :=
  ∀ id : ℕ, (id : ℤ) ∈ evidenceIds finding' ↔ id < n ∧ NamesFamily family finding id

/-- With an entry all entries of its family are claimed. -/
def WholeFamilies (n : ℕ) (family : ℕ → Option PyStr) (claimed : List ℕ) : Prop :=
  ∀ i ∈ claimed, ∀ j < n, family i = family j → j ∈ claimed

/-- While families are claimed as wholes, a finding gets all of the families it names. -/
lemma claimEntries_grown (hst : st.WellFormed)
    (hfamily : ∀ e ∈ st.entryManifest, family e.id = e.familyId) {claimed claimed' : List ℕ}
    {finding finding' : Json.Fields} (hwhole : WholeFamilies st.totalEntries family claimed)
    (h : claimEntries env st claimed finding = .ok (finding', claimed')) :
    Grown st.totalEntries family (.obj finding) (.obj finding') ∧
      WholeFamilies st.totalEntries family claimed' := by
  obtain ⟨ids, hids, hfree, rfl, hev⟩ := evidenceIds_of_claimEntries hst h
  have hknown := (readEntryIds_spec hst hids).1
  have hmem : ∀ id, id ∈ expandIds st claimed ids ↔
      id < st.totalEntries ∧ ∃ i ∈ ids, family i = family id := by
    intro id
    rw [mem_expandIds_family hst hfamily hknown, and_iff_right_iff_imp]
    rintro ⟨-, i, hi, hsame⟩ hclaimed
    exact hfree i hi (hwhole id hclaimed i (hknown i hi) hsame.symm)
  constructor
  · intro id
    rw [hev, mem_intIds]
    simp only [Nat.cast_inj, exists_eq_right, hmem, NamesFamily, mem_readEntryIds hids]
  · intro i hi j hj hsame
    rw [List.mem_append] at hi ⊢
    rcases hi with hi | hi
    · exact .inl (hwhole i hi j hj hsame)
    · obtain ⟨-, k, hk, hki⟩ := (hmem i).mp hi
      exact .inr ((hmem j).mpr ⟨hj, k, hk, hki.trans hsame⟩)

/-- All findings of a list get the families they name. -/
lemma groupFindings_grown (hst : st.WellFormed)
    (hfamily : ∀ e ∈ st.entryManifest, family e.id = e.familyId) {claimed claimed' : List ℕ}
    {found found' : List Json} (hev : ∀ finding ∈ found, NamesEvidence finding)
    (hwhole : WholeFamilies st.totalEntries family claimed)
    (h : groupFindings env st claimed found = .ok (found', claimed')) :
    List.Forall₂ (Grown st.totalEntries family) found found' := by
  induction found generalizing claimed found' with
  | nil =>
    simp only [groupFindings, Except.ok.injEq, Prod.mk.injEq] at h
    obtain ⟨rfl, rfl⟩ := h
    exact .nil
  | cons finding rest ih =>
    obtain ⟨finding', after, rest', hfinding, hrest, rfl⟩ := groupFindings_cons_eq_ok h
    obtain ⟨fields, fields', rfl, rfl, hclaim⟩ :=
      groupFinding_eq_ok (hev finding List.mem_cons_self) hfinding
    obtain ⟨hgrown, hafter⟩ := claimEntries_grown hst hfamily hwhole hclaim
    exact .cons hgrown (ih (fun f hf => hev f (List.mem_cons_of_mem _ hf)) hafter hrest)

/-- An appended finding has the unclaimed entries of a family with a presentation, or those of all
families without one. -/
lemma evidenceIds_of_appended {claimed : List ℕ} {appended : List Json.Fields}
    (h : appendedFindings env st claimed = .ok appended) {finding : Json}
    (hfinding : finding ∈ appended.map Json.obj) :
    (∃ f ∈ unclaimedByFamily st claimed, presentationOf f.1 ≠ none ∧
        evidenceIds finding = intIds f.2) ∨
      evidenceIds finding = intIds (((unclaimedByFamily st claimed).filter fun f =>
        (presentationOf f.1).isNone).flatMap (·.2)) := by
  obtain ⟨fields, hfields, rfl⟩ := List.mem_map.mp hfinding
  obtain ⟨recovered, hrecovered, h⟩ := Except.bind_eq_ok.mp h
  have hone : fields ∈ recovered → ∃ f ∈ unclaimedByFamily st claimed,
      presentationOf f.1 ≠ none ∧ evidenceIds (.obj fields) = intIds f.2 := by
    intro hmem
    obtain ⟨⟨name, p, ids⟩, hitem, hmade⟩ := Except.mem_of_mapM_eq_ok hrecovered hmem
    obtain ⟨f, hf, hpresented⟩ := List.mem_filterMap.mp hitem
    obtain ⟨p', hp', heq⟩ := Option.map_eq_some_iff.mp hpresented
    cases heq
    exact ⟨f, hf, by simp [hp'], (appendedFinding_spec hmade).1⟩
  dsimp only at h
  split at h
  · rw [Except.pure_eq_ok] at h
    subst h
    exact .inl (hone hfields)
  · obtain ⟨other, hother, h⟩ := Except.bind_eq_ok.mp h
    rw [Except.pure_eq_ok] at h
    subst h
    rcases List.mem_append.mp hfields with hmem | hmem
    · exact .inl (hone hmem)
    · rw [List.mem_singleton] at hmem
      subst hmem
      exact .inr (appendedFinding_spec hother).1

/-- An appended finding gets what nobody has claimed of one family with a presentation, or of all
families without one. -/
lemma appendedFindings_families (hst : st.WellFormed)
    (hfamily : ∀ e ∈ st.entryManifest, family e.id = e.familyId) {claimed : List ℕ}
    {appended : List Json.Fields} (h : appendedFindings env st claimed = .ok appended)
    {finding : Json} (hfinding : finding ∈ appended.map Json.obj) :
    ∃ p : PyStr → Prop, (∀ id : ℕ, (id : ℤ) ∈ evidenceIds finding ↔
        id < st.totalEntries ∧ id ∉ claimed ∧ ∃ name, family id = some name ∧ p name) ∧
      ((∃ name, presentationOf name ≠ none ∧ ∀ other, p other ↔ other = name) ∨
        ∀ name, p name ↔ presentationOf name = none) := by
  have hgroup : ∀ f ∈ unclaimedByFamily st claimed, ∀ id, id ∈ f.2 ↔
      id < st.totalEntries ∧ id ∉ claimed ∧ family id = some f.1 := by
    intro f hf id
    rw [unclaimedByFamily, List.mem_insertionSort] at hf
    rw [Dict.eq_filter_of_mem_groupBy _ hf, List.mem_filter, mem_unclaimedIds hst, and_assoc,
      decide_eq_true_eq]
    refine and_congr_right fun hid => and_congr_right fun _ => ?_
    obtain ⟨e, he⟩ := exists_entry hst hid
    obtain ⟨hmem, rfl⟩ := entryById_eq_some hst he
    obtain ⟨name, hname, -⟩ := hst.entryFamily e hmem
    simp [hfamily e hmem, he, hname]
  rcases evidenceIds_of_appended h hfinding with ⟨f, hf, hpresented, hev⟩ | hev
  · refine ⟨(· = f.1), fun id => ?_, .inl ⟨f.1, hpresented, fun other => Iff.rfl⟩⟩
    rw [hev, mem_intIds]
    simp [hgroup f hf]
  · refine ⟨fun name => presentationOf name = none, fun id => ?_, .inr fun name => Iff.rfl⟩
    rw [hev, mem_intIds]
    simp only [Nat.cast_inj, exists_eq_right, List.mem_flatMap, List.mem_filter,
      Option.isNone_iff_eq_none]
    constructor
    · rintro ⟨f, ⟨hf, hnone⟩, hid⟩
      obtain ⟨hlt, hfree, hname⟩ := (hgroup f hf id).mp hid
      exact ⟨hlt, hfree, f.1, hname, hnone⟩
    · rintro ⟨hlt, hfree, name, hname, hnone⟩
      have hunclaimed := (mem_unclaimedIds hst).mpr ⟨hlt, hfree⟩
      obtain ⟨group, hmem, hid⟩ := List.mem_flatMap.mp
        ((unclaimedByFamily_perm st claimed).mem_iff.mpr hunclaimed)
      obtain ⟨-, -, hname'⟩ := (hgroup group hmem id).mp hid
      rw [hname, Option.some.injEq] at hname'
      exact ⟨group, ⟨hmem, hname' ▸ hnone⟩, hid⟩

/-- What is claimed in the end: the families some finding names. -/
lemma mem_claimed_iff (hst : st.WellFormed)
    (hfamily : ∀ e ∈ st.entryManifest, family e.id = e.familyId) {claimed : List ℕ}
    {found found' : List Json} (hev : ∀ finding ∈ found, NamesEvidence finding)
    (h : groupFindings env st [] found = .ok (found', claimed)) (id : ℕ) :
    id ∈ claimed ↔ id < st.totalEntries ∧ ∃ finding ∈ found, NamesFamily family finding id := by
  obtain ⟨ids, hids, -, hshares⟩ := groupFindings_spec hst hev h
  rw [List.nil_append] at hids
  subst hids
  have hgrown := groupFindings_grown hst hfamily hev (fun _ hi => by cases hi) h
  have hshared : id ∈ claimed ↔ (id : ℤ) ∈ found'.flatMap evidenceIds := by
    rw [hshares.shared, mem_intIds]
    simp
  rw [hshared, List.mem_flatMap]
  constructor
  · rintro ⟨finding', hfinding', hid⟩
    obtain ⟨finding, hfinding, hgrow⟩ := hgrown.exists_left hfinding'
    obtain ⟨hlt, hnames⟩ := (hgrow id).mp hid
    exact ⟨hlt, finding, hfinding, hnames⟩
  · rintro ⟨hlt, finding, hfinding, hnames⟩
    obtain ⟨finding', hfinding', hgrow⟩ := hgrown.exists_right hfinding
    exact ⟨finding', hfinding', (hgrow id).mpr ⟨hlt, hnames⟩⟩

/-- **Which entries come to one finding.** Two entries do exactly when they have one owner. -/
theorem inOneFinding_iff (hst : st.WellFormed)
    (hfamily : ∀ e ∈ st.entryManifest, family e.id = e.familyId) {result out : Json.Fields}
    (hev : ∀ finding ∈ findings result, NamesEvidence finding)
    (h : reconcileEntryGrouped env st result = .ok out) {i j : ℕ} (hi : i < st.totalEntries)
    (hj : j < st.totalEntries) :
    InOneFinding (findings out) i j ↔ OneOwner family (findings result) i j := by
  obtain ⟨ids, hperm, hshares⟩ := reconcileEntryGrouped_shares hst hev h
  obtain ⟨found, claimed, appended, hloop, happended, hfindings⟩ := reconcileEntryGrouped_eq_ok h
  have hgrown := groupFindings_grown hst hfamily hev (fun _ hi => by cases hi) hloop
  have hclaimed := mem_claimed_iff hst hfamily hev hloop
  have hplace : ∀ id < st.totalEntries, ∃ finding ∈ findings out, (id : ℤ) ∈ evidenceIds finding := by
    intro id hid
    rw [← List.mem_flatMap, hshares.shared, mem_intIds]
    exact ⟨id, hperm.mem_iff.mpr (List.mem_range.mpr hid), rfl⟩
  have hfree : ∀ id < st.totalEntries, id ∉ claimed →
      ∀ finding ∈ findings result, ¬ NamesFamily family finding id :=
    fun id hid hid' finding hfinding hnames => hid' ((hclaimed id).mpr ⟨hid, finding, hfinding, hnames⟩)
  rw [hfindings] at hplace ⊢
  constructor
  · rintro ⟨finding, hfinding, hi', hj'⟩
    rcases List.mem_append.mp hfinding with hfinding | hfinding
    · obtain ⟨named, hnamed, hgrow⟩ := hgrown.exists_left hfinding
      exact .inr (.inl ⟨named, hnamed, ((hgrow i).mp hi').2, ((hgrow j).mp hj').2⟩)
    · obtain ⟨p, hgets, hp⟩ := appendedFindings_families hst hfamily happended hfinding
      obtain ⟨-, hfreei, a, ha, hpa⟩ := (hgets i).mp hi'
      obtain ⟨-, hfreej, b, hb, hpb⟩ := (hgets j).mp hj'
      rcases hp with ⟨name, -, hp⟩ | hp
      · left
        rw [ha, hb, (hp a).mp hpa, (hp b).mp hpb]
      · refine .inr (.inr ⟨⟨hfree i hi hfreei, ?_⟩, hfree j hj hfreej, ?_⟩)
        · intro name hname
          rw [ha, Option.some.injEq] at hname
          exact hname ▸ (hp a).mp hpa
        · intro name hname
          rw [hb, Option.some.injEq] at hname
          exact hname ▸ (hp b).mp hpb
  · rintro (hsame | ⟨named, hnamed, hni, hnj⟩ | ⟨hsi, hsj⟩)
    · -- every finding has families as wholes
      obtain ⟨finding, hfinding, hi'⟩ := hplace i hi
      refine ⟨finding, hfinding, hi', ?_⟩
      rcases List.mem_append.mp hfinding with hfinding | hfinding
      · obtain ⟨named, -, hgrow⟩ := hgrown.exists_left hfinding
        exact (hgrow j).mpr ⟨hj, (NamesFamily.congr hsame).mp ((hgrow i).mp hi').2⟩
      · obtain ⟨p, hgets, -⟩ := appendedFindings_families hst hfamily happended hfinding
        obtain ⟨-, hfreei, name, hname, hp⟩ := (hgets i).mp hi'
        refine (hgets j).mpr ⟨hj, fun hc => hfreei ?_, name, hsame ▸ hname, hp⟩
        obtain ⟨-, named, hnamed, hnj⟩ := (hclaimed j).mp hc
        exact (hclaimed i).mpr ⟨hi, named, hnamed, (NamesFamily.congr hsame).mpr hnj⟩
    · obtain ⟨finding, hfinding, hgrow⟩ := hgrown.exists_right hnamed
      exact ⟨finding, List.mem_append_left _ hfinding, (hgrow i).mpr ⟨hi, hni⟩,
        (hgrow j).mpr ⟨hj, hnj⟩⟩
    · -- only the appended finding without a presentation can have a spare entry
      obtain ⟨finding, hfinding, hi'⟩ := hplace i hi
      refine ⟨finding, hfinding, hi', ?_⟩
      rcases List.mem_append.mp hfinding with hfinding | hfinding
      · obtain ⟨named, hnamed, hgrow⟩ := hgrown.exists_left hfinding
        exact absurd ((hgrow i).mp hi').2 (hsi.1 named hnamed)
      · obtain ⟨p, hgets, hp⟩ := appendedFindings_families hst hfamily happended hfinding
        obtain ⟨-, -, a, ha, hpa⟩ := (hgets i).mp hi'
        rcases hp with ⟨name, hpresented, hp⟩ | hp
        · exact absurd (hsi.2 a ha) ((hp a).mp hpa ▸ hpresented)
        · obtain ⟨e, he, rfl⟩ := exists_of_lt hst hj
          obtain ⟨b, hb, -⟩ := hst.entryFamily e he
          rw [← hfamily e he] at hb
          refine (hgets e.id).mpr ⟨hj, fun hc => ?_, b, hb, (hp b).mpr (hsj.2 b hb)⟩
          obtain ⟨-, named, hnamed, hnj⟩ := (hclaimed e.id).mp hc
          exact hsj.1 named hnamed hnj

/-! ## Naming two entries apart -/

/-- A finding that names one entry. -/
def namesOne (i : ℕ) : Json := .obj [(py "evidence_entry_ids", entryIds [i])]

/-- A result with two findings, which name one entry each. -/
def namesTwo (i j : ℕ) : Json.Fields := [(py "key_finds", .arr [namesOne i, namesOne j])]

lemma evidenceIds_namesOne (i : ℕ) : evidenceIds (namesOne i) = [(i : ℤ)] := rfl

lemma findings_namesTwo (i j : ℕ) : findings (namesTwo i j) = [namesOne i, namesOne j] := by
  simp [findings, groupNames, namesTwo, groupItems, Json.Fields.get, Json.Fields.getD,
    Dict.get?_cons]

lemma namesEvidence_namesTwo (i j : ℕ) :
    ∀ finding ∈ findings (namesTwo i j), NamesEvidence finding := by
  intro finding hfinding
  rw [findings_namesTwo] at hfinding
  rcases List.mem_pair.mp hfinding with rfl | rfl <;> exact ⟨_, rfl, by simp [Dict.keys]⟩

lemma namesFamily_namesOne {i j : ℕ} :
    NamesFamily family (namesOne i) j ↔ family i = family j := by
  simp [NamesFamily, evidenceIds_namesOne]

/-- Entries of different families that are named apart have different owners. -/
lemma not_oneOwner_namesTwo {i j : ℕ} (hne : family i ≠ family j) :
    ¬ OneOwner family [namesOne i, namesOne j] i j := by
  rintro (hsame | ⟨finding, hfinding, hni, hnj⟩ | ⟨hspare, -⟩)
  · exact hne hsame
  · rcases List.mem_pair.mp hfinding with rfl | rfl
    · exact hne (namesFamily_namesOne.mp hnj)
    · exact hne (namesFamily_namesOne.mp hni).symm
  · exact hspare.1 (namesOne i) (by simp) (namesFamily_namesOne.mpr rfl)

/-- The identity of a finding can be hashed when its text has an encoding. -/
lemma semanticPatternId_ok (env : Env) (id : PyStr) (hne : id ≠ []) (h : id.encodable = true) :
    ∃ patternId, semanticPatternId env (.str id) = .ok patternId := by
  have htruthy : (Json.str id).truthy = true := by
    cases id with
    | nil => exact absurd rfl hne
    | cons c cs => rfl
  have hencodable : (py "semantic-v1:" ++ id).encodable = true := by
    rw [PyStr.encodable, List.all_append, ← PyStr.encodable, ← PyStr.encodable, h]
    decide
  refine ⟨py "semantic-" ++ (env.sha256Hex (py "semantic-v1:" ++ id)).take 12, ?_⟩
  rw [semanticPatternId, Json.or, if_pos htruthy, PyRuntime.str, shortDigest, if_pos hencodable]
  rfl

/-- A finding that names a free entry has its turn. -/
lemma groupFinding_namesOne (env : Env) (hst : st.WellFormed) {claimed : List ℕ} {i : ℕ}
    (hi : i < st.totalEntries) (hfree : i ∉ claimed) :
    ∃ finding, groupFinding env st claimed (namesOne i) =
      .ok (finding, claimed ++ expandIds st claimed [i]) := by
  have hcontains : Dict.contains (entryById st) i = true := by
    rw [Dict.contains_iff, keys_entryById hst]
    exact List.mem_range.mpr hi
  have hread : readEntryIds st (entryIds [i]) = .ok [i] := by
    simp [readEntryIds, entryIds, asInt, List.eraseDups_cons, hcontains]
    rfl
  have hoverlap : ([i].filter claimed.contains).min? = none := by
    simp [hfree]
  have hown : expandIds st claimed [i] ≠ [] :=
    List.ne_nil_of_mem (subset_expandIds hst (by simpa using hi) (by simpa using hfree)
      (List.mem_singleton_self i))
  obtain ⟨patternId, hpid⟩ := semanticPatternId_ok env (py "finding") (by decide) (by decide)
  have hclaim : claimEntries env st claimed [(py "evidence_entry_ids", entryIds [i])] =
      .ok (quantify st [(py "evidence_entry_ids", entryIds [i])] patternId
        (expandIds st claimed [i]), claimed ++ expandIds st claimed [i]) := by
    unfold claimEntries
    rw [show Json.Fields.get [(py "evidence_entry_ids", entryIds [i])] (py "evidence_entry_ids") =
      entryIds [i] from rfl, hread]
    simp only [bind, Except.bind, hoverlap, if_neg hown]
    rw [show semanticPatternId env (Json.Fields.get [(py "evidence_entry_ids", entryIds [i])]
      (py "id")) = .ok patternId from hpid]
    rfl
  have hnames : hasEvidence (.obj [(py "evidence_entry_ids", entryIds [i])]) = .ok true := by
    rw [hasEvidence, (Dict.contains_iff _ _).mpr (by simp [Dict.keys])]
    rfl
  refine ⟨.obj (quantify st [(py "evidence_entry_ids", entryIds [i])] patternId
    (expandIds st claimed [i])), ?_⟩
  rw [namesOne, groupFinding, hnames]
  show claimEntries env st claimed _ >>= _ = _
  rw [hclaim]
  rfl

/-- Nothing keeps the unclaimed entries from being appended. -/
lemma appendedFindings_ok (env : Env) (st : Statistics) (claimed : List ℕ) :
    ∃ appended, appendedFindings env st claimed = .ok appended := by
  have hone : ∀ (id : PyStr) (p : Presentation) (ids : List ℕ), id ≠ [] → id.encodable = true →
      ∃ fields, appendedFinding env st id p ids = .ok fields := by
    intro id p ids hne hencodable
    obtain ⟨patternId, hpid⟩ := semanticPatternId_ok env id hne hencodable
    rw [appendedFinding, hpid]
    exact ⟨_, rfl⟩
  have hrecovered : ∀ item ∈ (unclaimedByFamily st claimed).filterMap (fun f =>
      (presentationOf f.1).map fun p => (f.1, p, f.2)),
      ∃ fields, appendedFinding env st (py "recovered-" ++ item.1) item.2.1 item.2.2 =
        .ok fields := by
    intro item hitem
    obtain ⟨f, -, hpresented⟩ := List.mem_filterMap.mp hitem
    obtain ⟨p, hp, rfl⟩ := Option.map_eq_some_iff.mp hpresented
    have hnames : ∀ q ∈ recoverableFamilyPresentations,
        (py "recovered-" ++ py q.1).encodable = true := by decide
    obtain ⟨q, hq, -⟩ := Option.map_eq_some_iff.mp hp
    have hname : py q.1 = f.1 := by simpa using List.find?_some hq
    refine hone _ _ _ ?_ ?_
    · exact List.append_ne_nil_of_left_ne_nil (by decide) _
    · exact hname ▸ hnames q (List.mem_of_find?_eq_some hq)
  obtain ⟨recovered, hrecovered⟩ := Except.exists_mapM_eq_ok hrecovered
  obtain ⟨other, hother⟩ := hone (py "other-observed-log-activity") otherActivity
    (((unclaimedByFamily st claimed).filter fun f => (presentationOf f.1).isNone).flatMap (·.2))
    (by decide) (by decide)
  unfold appendedFindings
  simp only [hrecovered, hother, bind, Except.bind]
  split
  · exact ⟨_, rfl⟩
  · exact ⟨_, rfl⟩

/-- A result that names two entries of different families is accepted. -/
lemma namesTwo_accepted (env : Env) (hst : st.WellFormed)
    (hfamily : ∀ e ∈ st.entryManifest, family e.id = e.familyId) {i j : ℕ}
    (hi : i < st.totalEntries) (hj : j < st.totalEntries) (hne : family i ≠ family j)
    (fallback : Bool) : ∃ out, reconcileResult env st fallback (namesTwo i j) = .ok (out, out) := by
  have hfree : j ∉ [] ++ expandIds st [] [i] := by
    rw [List.nil_append, mem_expandIds_family hst hfamily (by simpa using hi)]
    simp [hne]
  obtain ⟨first, hfirst⟩ := groupFinding_namesOne env hst hi List.not_mem_nil
  obtain ⟨second, claimed, hsecond⟩ : ∃ second claimed,
      groupFinding env st ([] ++ expandIds st [] [i]) (namesOne j) = .ok (second, claimed) :=
    (groupFinding_namesOne env hst hj hfree).imp fun _ h => ⟨_, h⟩
  obtain ⟨appended, happended⟩ := appendedFindings_ok env st claimed
  have hloop : groupFindings env st [] [namesOne i, namesOne j] =
      .ok ([first, second], claimed) := by
    rw [groupFindings, hfirst]
    dsimp only
    rw [groupFindings, hsecond]
    rfl
  have hkey : reconcileGroup env st (namesTwo i j) [] (py "key_finds") =
      .ok ([(py "key_finds", .arr [first, second])], claimed) := by
    rw [reconcileGroup, namesTwo, Dict.get?_cons, if_pos rfl]
    dsimp only
    rw [hloop]
    rfl
  have hsecondary : ∀ claimed, reconcileGroup env st [(py "key_finds", .arr [first, second])]
      claimed (py "secondary_finds") = .ok ([(py "key_finds", .arr [first, second])], claimed) := by
    intro claimed
    rw [reconcileGroup, Dict.get?_cons, if_neg (by decide)]
    rfl
  obtain ⟨out, hout⟩ : ∃ out, appendUnclaimed env st [(py "key_finds", .arr [first, second])]
      claimed = .ok out := by
    rw [appendUnclaimed, happended]
    cases appended with
    | nil => exact ⟨_, rfl⟩
    | cons fields rest => exact ⟨_, rfl⟩
  have hpath : iterGroups (namesTwo i j) groupNames = .ok true := rfl
  refine ⟨Dict.set out (py "total_entries") (.int st.totalEntries), ?_⟩
  rw [reconcileResult, hpath]
  simp only [reconcileEntryGrouped, hkey, hsecondary, hout, bind, Except.bind, pure, Except.pure]

end Together

/-! ## When entries of one pattern come together -/

/-- Lines with one pattern have one owner. -/
def OneOwnerPerPattern (env : Env) (lines : List LogEntry) (found : List Json) : Prop :=
  ∀ i j, i < lines.length → j < lines.length → patternAt env lines i = patternAt env lines j →
    OneOwner (familyAt env lines) found i j

/-- **When entries of one pattern are not split.** The family on record for a pattern is the family
of every entry of it, and no accepted result splits a pattern, exactly on the logs whose lines with
one pattern have one family. On any log an accepted result splits no pattern exactly when the lines
with one pattern have one owner. -/
theorem patternsTogether_iff (env : Env) (logText : PyStr) (st : Statistics)
    (hst : preprocessLog env logText = .ok st) :
    ((∀ e ∈ st.entryManifest, e.familyId = st.recordedFamily e.patternId) ↔
        OneFamilyPerPattern env (logLines env logText)) ∧
      ((∀ fallback result out left, findings result ≠ [] →
          (∀ finding ∈ findings result, NamesEvidence finding) →
          reconcileResult env st fallback result = .ok (out, left) →
          PatternsTogether st (findings out)) ↔
        OneFamilyPerPattern env (logLines env logText)) ∧
      ∀ fallback result out left, findings result ≠ [] →
        (∀ finding ∈ findings result, NamesEvidence finding) →
        reconcileResult env st fallback result = .ok (out, left) →
        (PatternsTogether st (findings out) ↔
          OneOwnerPerPattern env (logLines env logText) (findings result)) := by
  have hwf := preprocessLog_wellFormed hst
  obtain ⟨lines, hlines, hfiles, hrecorded⟩ := preprocessLog_files hst
  rw [show logLines env logText = lines by rw [logLines, hlines]; rfl]
  have hfamily : ∀ e ∈ st.entryManifest, familyAt env lines e.id = e.familyId :=
    fun e he => (at_of_mem_manifest hwf hfiles he).2
  have howner : ∀ fallback result out left, findings result ≠ [] →
      (∀ finding ∈ findings result, NamesEvidence finding) →
      reconcileResult env st fallback result = .ok (out, left) →
      (PatternsTogether st (findings out) ↔ OneOwnerPerPattern env lines (findings result)) := by
    intro fallback result out left hne hev h
    have hgroups := reconcileEntryGrouped_of_namesEvidence hne hev h
    rw [OneOwnerPerPattern, forall_samePattern_iff hwf hfiles, PatternsTogether]
    refine forall₂_congr fun a ha => forall₂_congr fun b hb => imp_congr_right fun _ => ?_
    exact inOneFinding_iff hwf hfamily hev hgroups (lt_of_mem_manifest hwf ha)
      (lt_of_mem_manifest hwf hb)
  refine ⟨recordedFamily_iff hwf hfiles hrecorded, ⟨fun h => ?_, fun h => ?_⟩, howner⟩
  · rw [OneFamilyPerPattern, forall_samePattern_iff hwf hfiles
      fun i j => familyAt env lines i = familyAt env lines j]
    intro a ha b hb hpattern
    by_contra hne
    -- a result that names the two entries apart splits their pattern
    obtain ⟨out, hout⟩ := namesTwo_accepted env hwf hfamily (lt_of_mem_manifest hwf ha)
      (lt_of_mem_manifest hwf hb) hne false
    have hev := namesEvidence_namesTwo a.id b.id
    have hfound := findings_namesTwo a.id b.id
    have htogether := h false _ out out (by simp [hfound]) hev hout a ha b hb hpattern
    rw [inOneFinding_iff hwf hfamily hev
      (reconcileEntryGrouped_of_namesEvidence (by simp [hfound]) hev hout)
      (lt_of_mem_manifest hwf ha) (lt_of_mem_manifest hwf hb), hfound] at htogether
    exact not_oneOwner_namesTwo hne htogether
  · intro fallback result out left hne hev hout
    rw [howner fallback result out left hne hev hout]
    exact fun i j hi hj hpattern => .inl (h i j hi hj hpattern)

instance (found : List Json) (i j : ℕ) : Decidable (InOneFinding found i j) :=
  inferInstanceAs (Decidable (∃ finding ∈ found, _))

instance (st : Statistics) (found : List Json) : Decidable (PatternsTogether st found) :=
  inferInstanceAs (Decidable (∀ a ∈ st.entryManifest, ∀ b ∈ st.entryManifest, _))

/-- The digests of the texts of `retryLog` and `retryResult`. -/
def retryEnv : Env where
  __ := sampleEnv
  sha256Hex := fun text => py (
    if text = py "retry in <n> ms" then
      "8d5a0c6691715901fb1985254b339bdcc9482a4e8b07ea17ae632d346af7e095"
    else if text = py "retry in 5 ms" then
      "23552a6229d0c687745a030f1da75ad8984b3e5423d9b41d8b0ed158bc743627"
    else if text = py "retry in 7 ms" then
      "e954eb52aaa0850cf53b7dee9ef23763755ca635d4465458843681ecc72ddf21"
    else if text = py "semantic-v1:f1" then
      "805750c8538837dd87e3e5217d0db3bea1cc312f4874eba58abc2f7006c91e35"
    else
      "fd5b7b8c0aed5d56355fa49cf09be2cb4690a583a247429ffeb51a71c7da8e66")

/-- Two lines that differ in a number. -/
def retryLog : PyStr := py "retry in 5 ms\nretry in 7 ms"

/-- A result with a finding for each of them. -/
def retryResult : Json.Fields :=
  [(py "key_finds", .arr [
    .obj [(py "id", literal "f1"), (py "evidence_entry_ids", .arr [.int 0])],
    .obj [(py "id", literal "f2"), (py "evidence_entry_ids", .arr [.int 1])]])]

lemma namesEvidence_retryResult :
    ∀ finding ∈ findings retryResult, NamesEvidence finding := by
  intro finding hfinding
  have hitems : findings retryResult = [
    .obj [(py "id", literal "f1"), (py "evidence_entry_ids", .arr [.int 0])],
    .obj [(py "id", literal "f2"), (py "evidence_entry_ids", .arr [.int 1])]] := rfl
  rw [hitems] at hfinding
  rcases List.mem_pair.mp hfinding with rfl | rfl <;> exact ⟨_, rfl, by simp [Dict.keys]⟩

/-- `patternsTogether_iff` speaks about `retryLog` and `retryResult`. -/
theorem retryResult_together_iff : ∃ st out left, preprocessLog retryEnv retryLog = .ok st ∧
    reconcileResult retryEnv st false retryResult = .ok (out, left) ∧
    (PatternsTogether st (findings out) ↔
      OneOwnerPerPattern retryEnv (logLines retryEnv retryLog) (findings retryResult)) := by
  obtain ⟨st, out, left, hst, h, -⟩ := exists_run retryEnv retryLog false retryResult
    (fun _ _ => true) (by decide +kernel)
  exact ⟨st, out, left, hst, h, (patternsTogether_iff retryEnv retryLog st hst).2.2 false
    retryResult out left (by decide) namesEvidence_retryResult h⟩

/-- The lines of `retryLog` have one pattern, and `retryResult` splits it. -/
theorem retryResult_splits : ∃ st out left, preprocessLog retryEnv retryLog = .ok st ∧
    (∀ finding ∈ findings retryResult, NamesEvidence finding) ∧
    reconcileResult retryEnv st false retryResult = .ok (out, left) ∧
    ¬ PatternsTogether st (findings out) ∧
    ¬ ∀ e ∈ st.entryManifest, e.familyId = st.recordedFamily e.patternId := by
  obtain ⟨st, out, left, hst, h, hsplits⟩ := exists_run retryEnv retryLog false retryResult
    (fun st out => decide (¬ PatternsTogether st (findings out) ∧
      ¬ ∀ e ∈ st.entryManifest, e.familyId = st.recordedFamily e.patternId)) (by rfl)
  exact ⟨st, out, left, hst, namesEvidence_retryResult, h, of_decide_eq_true hsplits⟩

end Triage
