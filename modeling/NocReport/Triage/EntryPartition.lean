import NocReport.Triage.PatternPath

set_option relaxedAutoImplicit false
set_option autoImplicit false

/-!
# Reconciliation by entries partitions the log

When every finding names evidence, the entries of the log end up in exactly one finding each:
a finding gets what is left of the families of its entries, and the appended findings get what
nobody has claimed.

## Main definitions

* `Triage.NamesEvidence`, `Triage.evidenceIds` — whether a finding names entries, and which.
* `Triage.Balanced` — the counts of a finding are those of its entries.
* `Triage.Shares` — findings that share some entries, each one in one finding.

## Main results

* `Triage.claimEntries_spec`, `Triage.groupFindings_spec` — what findings claim.
* `Triage.appendedFindings_spec` — what the appended findings get.
* `Triage.reconcileEntryGrouped_eq_ok` — how the whole goes.
* `Triage.reconcileEntryGrouped_shares` — all findings together share the entries of the log.
-/

namespace Dict

variable {κ α : Type} [DecidableEq κ]

lemma flatMap_push (d : Dict κ (List α)) (k : κ) (v : α) :
    ((push d k v).flatMap (·.2)).Perm (d.flatMap (·.2) ++ [v]) := by
  induction d with
  | nil => exact .refl _
  | cons p d ih =>
    obtain ⟨k', vs⟩ := p
    by_cases hk : k' = k
    · simp only [push, getD, get?_cons, set, if_pos hk, Option.getD_some, List.flatMap_cons,
        List.append_assoc]
      exact List.perm_append_comm.append_left vs
    · simp only [push, getD, get?_cons, set, if_neg hk, List.flatMap_cons,
        List.append_assoc] at ih ⊢
      exact ih.append_left vs

/-- The last element joins its group. -/
lemma groupBy_concat (key : α → κ) (xs : List α) (x : α) :
    groupBy key (xs ++ [x]) = push (groupBy key xs) (key x) x := by
  simp [groupBy]

/-- Grouping a list keeps its elements. -/
lemma groupBy_perm (key : α → κ) (xs : List α) :
    ((groupBy key xs).flatMap (·.2)).Perm xs := by
  induction xs using List.reverseRecOn with
  | nil => exact .refl _
  | append_singleton xs x ih =>
    rw [groupBy_concat]
    exact (flatMap_push _ _ _).trans (ih.append_right [x])

lemma getD_push (d : Dict κ (List α)) (k i : κ) (v : α) :
    getD (push d k v) i [] = if i = k then getD d k [] ++ [v] else getD d i [] := by
  rw [push, getD, get?_set]
  split <;> rfl

/-- A group has the elements with its key. -/
lemma getD_groupBy (key : α → κ) (xs : List α) (k : κ) :
    getD (groupBy key xs) k [] = xs.filter fun x => key x = k := by
  induction xs using List.reverseRecOn with
  | nil => rfl
  | append_singleton xs x ih =>
    rw [groupBy_concat, getD_push, List.filter_append]
    by_cases hk : k = key x
    · subst hk
      rw [if_pos rfl, ih]
      simp
    · have hne : key x ≠ k := Ne.symm hk
      rw [if_neg hk, ih]
      simp [hne]

lemma nodup_keys_groupBy (key : α → κ) (xs : List α) : (keys (groupBy key xs)).Nodup := by
  induction xs using List.reverseRecOn with
  | nil => exact List.nodup_nil
  | append_singleton xs x ih =>
    rw [groupBy_concat]
    exact nodup_keys_set ih _ _

/-- The groups of a list are the elements with one key. -/
lemma eq_filter_of_mem_groupBy (key : α → κ) {xs : List α} {k : κ} {group : List α}
    (h : (k, group) ∈ groupBy key xs) : group = xs.filter fun x => key x = k := by
  have hget := get?_of_mem (nodup_keys_groupBy key xs) h
  rw [← getD_groupBy, getD, hget]
  rfl

/-- Every element is in the group of its key. -/
lemma exists_mem_groupBy (key : α → κ) {xs : List α} {x : α} (hx : x ∈ xs) :
    ∃ group, (key x, group) ∈ groupBy key xs ∧ x ∈ group := by
  have hmem := (groupBy_perm key xs).mem_iff.mpr hx
  obtain ⟨⟨k, group⟩, hgroup, hmem⟩ := List.mem_flatMap.mp hmem
  have hkey := eq_filter_of_mem_groupBy key hgroup
  dsimp only at hmem
  rw [hkey, List.mem_filter, decide_eq_true_eq] at hmem
  obtain ⟨-, rfl⟩ := hmem
  refine ⟨group, hgroup, ?_⟩
  rw [hkey]
  simp [hx]

end Dict

namespace Triage

/-! ## The fields of findings -/

/-- The finding names evidence entries. -/
def NamesEvidence (finding : Json) : Prop :=
  ∃ fields, finding = .obj fields ∧ py "evidence_entry_ids" ∈ Dict.keys fields

/-- A field of a finding. -/
def field (finding : Json) (key : String) : Json :=
  match finding with
  | .obj fields => Json.Fields.get fields (py key)
  | _ => .null

/-- The entry ids of a finding. -/
def evidenceIds (finding : Json) : List ℤ :=
  match field finding "evidence_entry_ids" with
  | .arr items => items.filterMap asInt
  | _ => []

/-- The counts of a finding are those of its entries. -/
structure Balanced (finding : Json) : Prop where
  count : field finding "count" = .int (evidenceIds finding).length
  physical : field finding "physical_entry_count" = .int (evidenceIds finding).length
  occurrence : ∃ k : ℕ, field finding "occurrence_count" = .int k ∧
    k ≤ (evidenceIds finding).length

/-- A finding whose `pattern_ids` is the marker of unquantified findings has no entries, and any
other has the counts of its entries. -/
structure Accounted (finding : Json) : Prop where
  unquantified : isUnquantified (field finding "pattern_ids") = true → evidenceIds finding = []
  quantified : isUnquantified (field finding "pattern_ids") = false → Balanced finding

section Spec

variable {env : Env} {st : Statistics}

/-- The entry ids as integers. -/
def intIds (ids : List ℕ) : List ℤ := ids.map fun id : ℕ => (id : ℤ)

lemma evidenceIds_of_field {finding : Json} {ids : List ℕ}
    (h : field finding "evidence_entry_ids" = entryIds ids) :
    evidenceIds finding = intIds ids := by
  rw [evidenceIds, h]
  simp only [entryIds, intIds, List.filterMap_map]
  clear h
  induction ids with
  | nil => rfl
  | cons id ids ih => simp [asInt, ih]

lemma occurrenceCount_le (st : Statistics) (ids : List ℕ) :
    occurrenceCount st ids ≤ ids.length := by
  have h := List.toFinset_card_le (ids.map (occurrence st))
  rwa [List.length_map] at h

/-- A field after an assignment. -/
@[simp] lemma get_set (fields : Json.Fields) (k i : PyStr) (v : Json) :
    Json.Fields.get (Dict.set fields k v) i = if i = k then v else Json.Fields.get fields i := by
  rw [Json.Fields.get, Json.Fields.getD, Dict.get?_set]
  split <;> rfl

@[simp] lemma field_obj (fields : Json.Fields) (key : String) :
    field (.obj fields) key = Json.Fields.get fields (py key) := rfl

lemma get_of_get? {fields : Json.Fields} {name : PyStr} {v : Json}
    (h : Dict.get? fields name = some v) : Json.Fields.get fields name = v := by
  rw [Json.Fields.get, Json.Fields.getD, h]
  rfl

lemma mem_intIds {ids : List ℕ} {i : ℤ} : i ∈ intIds ids ↔ ∃ id ∈ ids, (id : ℤ) = i :=
  List.mem_map

lemma length_intIds (ids : List ℕ) : (intIds ids).length = ids.length := List.length_map _

/-! ## The entries of well-formed statistics -/

lemma entryById_eq (hst : st.WellFormed) :
    entryById st = st.entryManifest.map fun e => (e.id, e) := by
  refine Dict.ofList_of_nodup ?_
  rw [List.map_map]
  show (st.entryManifest.map (·.id)).Nodup
  rw [hst.ids]
  exact List.nodup_range

lemma keys_entryById (hst : st.WellFormed) :
    Dict.keys (entryById st) = List.range st.totalEntries := by
  rw [entryById_eq hst, Dict.keys, List.map_map]
  exact hst.ids

/-- Looking up an entry finds the entry of the manifest with that id. -/
lemma entryById_eq_some (hst : st.WellFormed) {id : ℕ} {e : Entry}
    (h : Dict.get? (entryById st) id = some e) : e ∈ st.entryManifest ∧ e.id = id := by
  have hmem := Dict.mem_of_get?_eq_some h
  rw [entryById_eq hst] at hmem
  obtain ⟨e', he', heq⟩ := List.mem_map.mp hmem
  cases heq
  exact ⟨he', rfl⟩

lemma exists_entry (hst : st.WellFormed) {id : ℕ} (h : id < st.totalEntries) :
    ∃ e, Dict.get? (entryById st) id = some e := by
  rw [← Option.ne_none_iff_exists', ne_eq, Dict.get?_eq_none_iff, keys_entryById hst, not_not]
  exact List.mem_range.mpr h

lemma lt_of_mem_manifest (hst : st.WellFormed) {e : Entry} (h : e ∈ st.entryManifest) :
    e.id < st.totalEntries := by
  have hmem : e.id ∈ st.entryManifest.map (·.id) := List.mem_map_of_mem h
  rw [hst.ids] at hmem
  exact List.mem_range.mp hmem

/-- An entry is expanded to the entries of its family. -/
lemma mem_expandEntry (hst : st.WellFormed) {e : Entry} (he : e ∈ st.entryManifest) {id : ℕ} :
    id ∈ expandEntry st e ↔ ∃ e' ∈ st.entryManifest, e'.familyId = e.familyId ∧ e'.id = id := by
  obtain ⟨family, hfamily, hne⟩ := hst.entryFamily e he
  have hmem : ∀ i, i ∈ familyEntries st family ↔
      ∃ e' ∈ st.entryManifest, e'.familyId = some family ∧ e'.id = i := by
    intro i
    simp only [familyEntries, List.mem_map, List.mem_filter, decide_eq_true_eq]
    constructor
    · rintro ⟨e', ⟨he', hf, -⟩, rfl⟩
      exact ⟨e', he', hf, rfl⟩
    · rintro ⟨e', he', hf, rfl⟩
      exact ⟨e', ⟨he', hf, hne⟩, rfl⟩
  have hown : familyEntries st family ≠ [] :=
    List.ne_nil_of_mem ((hmem e.id).mpr ⟨e, he, hfamily, rfl⟩)
  simp only [expandEntry, hfamily, Option.getD_some, if_neg hown]
  exact hmem id

/-- What some entries are expanded to: what is left of their families. -/
lemma mem_expandIds (hst : st.WellFormed) {claimed ids : List ℕ} {id : ℕ} :
    id ∈ expandIds st claimed ids ↔ id ∉ claimed ∧ ∃ i ∈ ids, ∃ e ∈ st.entryManifest, e.id = i ∧
      ∃ e' ∈ st.entryManifest, e'.familyId = e.familyId ∧ e'.id = id := by
  simp only [expandIds, List.mem_insertionSort, List.mem_eraseDups, List.mem_filter,
    List.mem_flatMap, List.mem_filterMap, Bool.not_eq_true', List.contains_eq_mem,
    decide_eq_false_iff_not]
  constructor
  · rintro ⟨⟨e, ⟨i, hi, he⟩, hid⟩, hclaimed⟩
    obtain ⟨hmem, heq⟩ := entryById_eq_some hst he
    exact ⟨hclaimed, i, hi, e, hmem, heq, (mem_expandEntry hst hmem).mp hid⟩
  · rintro ⟨hclaimed, i, hi, e, hmem, rfl, hid⟩
    obtain ⟨e', he'⟩ := exists_entry hst (lt_of_mem_manifest hst hmem)
    obtain ⟨hmem', heq⟩ := entryById_eq_some hst he'
    have hsame : e' = e :=
      List.inj_on_of_nodup_map (hst.ids ▸ List.nodup_range) hmem' hmem heq
    exact ⟨⟨e, ⟨e.id, hi, hsame ▸ he'⟩, (mem_expandEntry hst hmem).mpr hid⟩, hclaimed⟩

lemma nodup_expandIds (st : Statistics) (claimed ids : List ℕ) :
    (expandIds st claimed ids).Nodup :=
  (List.perm_insertionSort _ _).nodup_iff.mpr (List.nodup_eraseDups _)

lemma lt_of_mem_expandIds (hst : st.WellFormed) {claimed ids : List ℕ} {id : ℕ}
    (h : id ∈ expandIds st claimed ids) : id < st.totalEntries := by
  obtain ⟨-, -, -, -, -, -, e, he, -, rfl⟩ := (mem_expandIds hst).mp h
  exact lt_of_mem_manifest hst he

/-! ## What a finding claims -/

/-- The entries a finding names are entries of the log. -/
lemma readEntryIds_spec (hst : st.WellFormed) {raw : Json} {ids : List ℕ}
    (h : readEntryIds st raw = .ok ids) :
    (∀ id ∈ ids, id < st.totalEntries) ∧ (ids = [] → raw = .arr []) := by
  unfold readEntryIds at h
  dsimp only at h
  split at h
  · next items =>
    obtain ⟨items', hitems, h⟩ := Except.bind_eq_ok.mp h
    rw [Except.pure_eq_ok] at hitems
    subst hitems
    obtain ⟨raws, hraws, h⟩ := Except.bind_eq_ok.mp h
    constructor
    · intro id hid
      obtain ⟨i, -, hi⟩ := Except.mem_of_mapM_eq_ok h hid
      split at hi
      · next hknown =>
        rw [Except.pure_eq_ok] at hi
        rw [← hi, ← List.mem_range, ← keys_entryById hst, ← Dict.contains_iff]
        exact hknown.2
      · exact absurd hi Except.throw_ne_ok
    · rintro rfl
      have hnil : raws.eraseDups = [] :=
        List.length_eq_zero_iff.mp (Except.mapM_eq_ok.mp h).length_eq
      have hraws' : raws = [] := by
        cases raws with
        | nil => rfl
        | cons i raws => simp [List.eraseDups_cons] at hnil
      have hlen := (Except.mapM_eq_ok.mp hraws).length_eq
      rw [hraws'] at hlen
      rw [List.length_eq_zero_iff.mp hlen]
  · obtain ⟨items, hitems, -⟩ := Except.bind_eq_ok.mp h
    exact absurd hitems Except.throw_ne_ok

/-- A semantic pattern id is not the marker of unquantified findings. -/
lemma isUnquantified_semantic {findingId : Json} {patternId : PyStr}
    (h : semanticPatternId env findingId = .ok patternId) :
    isUnquantified (texts [patternId]) = false := by
  obtain ⟨digest, -, h⟩ := Except.bind_eq_ok.mp h
  rw [Except.pure_eq_ok] at h
  rw [← h]
  rfl

/-- The finding with its entries. -/
def withEntries (env : Env) (st : Statistics) (finding : Json.Fields) (ids : List ℕ) :
    Except PyError Json.Fields :=
  if ids = [] then return unquantify finding
  else do
    let patternId ← semanticPatternId env (finding.get (py "id"))
    return quantify st finding patternId ids

/-- When a finding is accepted: the entries it names are known and free. -/
lemma claimEntries_eq_ok_iff {claimed claimed' : List ℕ} {finding finding' : Json.Fields} :
    claimEntries env st claimed finding = .ok (finding', claimed') ↔
      ∃ ids, readEntryIds st (finding.get (py "evidence_entry_ids")) = .ok ids ∧
        (∀ id ∈ ids, id ∉ claimed) ∧
        withEntries env st finding (expandIds st claimed ids) = .ok finding' ∧
        claimed' = claimed ++ expandIds st claimed ids := by
  rw [claimEntries, Except.bind_eq_ok]
  refine exists_congr fun ids => and_congr_right fun _ => ?_
  have hoverlap : (ids.filter claimed.contains).min? = none ↔ ∀ id ∈ ids, id ∉ claimed := by
    simp [List.min?_eq_none_iff, List.filter_eq_nil_iff]
  cases hmin : (ids.filter claimed.contains).min? with
  | some i =>
    constructor
    · intro h
      exact absurd h Except.throw_ne_ok
    · rintro ⟨hfree, -⟩
      rw [hoverlap.mpr hfree] at hmin
      cases hmin
  | none =>
    rw [and_iff_right (hoverlap.mp hmin)]
    dsimp only
    unfold withEntries
    by_cases hexpanded : expandIds st claimed ids = []
    · rw [if_pos hexpanded, if_pos hexpanded, hexpanded, List.append_nil]
      rw [Except.pure_eq_ok, Except.pure_eq_ok, Prod.mk.injEq]
      exact and_congr_right fun _ => eq_comm
    · rw [if_neg hexpanded, if_neg hexpanded]
      cases semanticPatternId env (finding.get (py "id")) with
      | error e =>
        constructor
        · intro h
          cases h
        · rintro ⟨h, -⟩
          cases h
      | ok patternId => simp [eq_comm]

/-- How a finding claims entries: the ones it names are free, and it gets those they are expanded
to. -/
lemma claimEntries_eq_ok {claimed claimed' : List ℕ} {finding finding' : Json.Fields}
    (h : claimEntries env st claimed finding = .ok (finding', claimed')) :
    ∃ ids, readEntryIds st (finding.get (py "evidence_entry_ids")) = .ok ids ∧
      (∀ id ∈ ids, id ∉ claimed) ∧ claimed' = claimed ++ expandIds st claimed ids ∧
      ((expandIds st claimed ids = [] ∧ finding' = unquantify finding) ∨
        ∃ patternId, semanticPatternId env (finding.get (py "id")) = .ok patternId ∧
          finding' = quantify st finding patternId (expandIds st claimed ids)) := by
  obtain ⟨ids, hids, hfree, hfinding, hclaimed⟩ := claimEntries_eq_ok_iff.mp h
  refine ⟨ids, hids, hfree, hclaimed, ?_⟩
  unfold withEntries at hfinding
  split at hfinding
  · next hexpanded =>
    cases hfinding
    exact .inl ⟨hexpanded, rfl⟩
  · obtain ⟨patternId, hpid, hfinding⟩ := Except.bind_eq_ok.mp hfinding
    cases hfinding
    exact .inr ⟨patternId, hpid, rfl⟩

/-- Free entries are among those they are expanded to. -/
lemma subset_expandIds (hst : st.WellFormed) {claimed ids : List ℕ}
    (hknown : ∀ id ∈ ids, id < st.totalEntries) (hfree : ∀ id ∈ ids, id ∉ claimed) {id : ℕ}
    (hid : id ∈ ids) : id ∈ expandIds st claimed ids := by
  obtain ⟨e, he⟩ := exists_entry hst (hknown id hid)
  obtain ⟨hmem, rfl⟩ := entryById_eq_some hst he
  exact (mem_expandIds hst).mpr ⟨hfree _ hid, _, hid, e, hmem, rfl, e, hmem, rfl, rfl⟩

/-- A finding has the entries it claims. -/
lemma evidenceIds_of_claimEntries (hst : st.WellFormed) {claimed claimed' : List ℕ}
    {finding finding' : Json.Fields}
    (h : claimEntries env st claimed finding = .ok (finding', claimed')) :
    ∃ ids, readEntryIds st (finding.get (py "evidence_entry_ids")) = .ok ids ∧
      (∀ id ∈ ids, id ∉ claimed) ∧ claimed' = claimed ++ expandIds st claimed ids ∧
      evidenceIds (.obj finding') = intIds (expandIds st claimed ids) := by
  obtain ⟨ids, hids, hfree, hclaimed, hfinding⟩ := claimEntries_eq_ok h
  refine ⟨ids, hids, hfree, hclaimed, ?_⟩
  rcases hfinding with ⟨hexpanded, rfl⟩ | ⟨patternId, -, rfl⟩
  · obtain ⟨hknown, hempty⟩ := readEntryIds_spec hst hids
    have hnone : ids = [] := by
      refine List.eq_nil_iff_forall_not_mem.mpr fun id hid => ?_
      have hown := subset_expandIds hst hknown hfree hid
      rw [hexpanded] at hown
      cases hown
    rw [hexpanded]
    simp [evidenceIds, unquantify, hempty hnone, intIds]
  · exact evidenceIds_of_field (by simp [quantify])

/-- What a finding claims: entries of the log nobody has claimed before, which it has afterwards
with their counts; a finding that names no entries claims none. -/
lemma claimEntries_spec (hst : st.WellFormed) {claimed claimed' : List ℕ}
    {finding finding' : Json.Fields}
    (h : claimEntries env st claimed finding = .ok (finding', claimed')) :
    ∃ ids : List ℕ, claimed' = claimed ++ ids ∧ ids.Nodup ∧
      (∀ id ∈ ids, id < st.totalEntries ∧ id ∉ claimed) ∧
      evidenceIds (.obj finding') = intIds ids ∧ Accounted (.obj finding') := by
  obtain ⟨named, hnamed, -, hclaimed, hev⟩ := evidenceIds_of_claimEntries hst h
  refine ⟨expandIds st claimed named, hclaimed, nodup_expandIds st claimed named, fun id hid =>
    ⟨lt_of_mem_expandIds hst hid, ((mem_expandIds hst).mp hid).1⟩, hev, ?_⟩
  obtain ⟨ids, hids, -, -, hfinding⟩ := claimEntries_eq_ok h
  have hsame : named = ids := by
    rw [hnamed] at hids
    exact Except.ok.inj hids
  subst hsame
  rcases hfinding with ⟨hexpanded, rfl⟩ | ⟨patternId, hpid, rfl⟩
  · refine ⟨fun _ => ?_, fun hq => ?_⟩
    · rw [hev, hexpanded]
      rfl
    · simp [unquantify, unquantifiedIds, isUnquantified] at hq
  · refine ⟨fun hu => ?_, fun _ =>
      ⟨?_, ?_, occurrenceCount st (expandIds st claimed named), ?_, ?_⟩⟩
    · simp [quantify, isUnquantified_semantic hpid] at hu
    · rw [hev, length_intIds]
      simp [quantify]
    · rw [hev, length_intIds]
      simp [quantify]
    · simp [quantify]
    · rw [hev, length_intIds]
      exact occurrenceCount_le st _

/-! ## What all findings claim -/

/-- Findings that share the entries `ids`: each of these is an entry of the log and belongs to
exactly one finding, and the counts of each finding are those of its entries. -/
structure Shares (st : Statistics) (found : List Json) (ids : List ℕ) : Prop where
  nodup : ids.Nodup
  known : ∀ id ∈ ids, id < st.totalEntries
  shared : found.flatMap evidenceIds = intIds ids
  accounted : ∀ finding ∈ found, Accounted finding

lemma Shares.nil : Shares st [] [] :=
  ⟨List.nodup_nil, by simp, rfl, by simp⟩

/-- Findings that share other entries can be put together. -/
lemma Shares.append {found found' : List Json} {ids ids' : List ℕ} (h : Shares st found ids)
    (h' : Shares st found' ids') (hdisjoint : ∀ id ∈ ids', id ∉ ids) :
    Shares st (found ++ found') (ids ++ ids') where
  nodup := List.nodup_append.mpr ⟨h.nodup, h'.nodup, by
    rintro a ha b hb rfl
    exact hdisjoint a hb ha⟩
  known := by
    intro id hid
    rcases List.mem_append.mp hid with hid | hid
    · exact h.known id hid
    · exact h'.known id hid
  shared := by
    rw [List.flatMap_append, h.shared, h'.shared, intIds, intIds, intIds, List.map_append]
  accounted := by
    intro finding hf
    rcases List.mem_append.mp hf with hf | hf
    · exact h.accounted finding hf
    · exact h'.accounted finding hf

/-- One turn of the loop, over a finding that names evidence. -/
lemma groupFinding_eq_ok {claimed claimed' : List ℕ} {finding finding' : Json}
    (hev : NamesEvidence finding)
    (h : groupFinding env st claimed finding = .ok (finding', claimed')) :
    ∃ fields fields', finding = .obj fields ∧ finding' = .obj fields' ∧
      claimEntries env st claimed fields = .ok (fields', claimed') := by
  obtain ⟨fields, rfl, hkey⟩ := hev
  have hnames : hasEvidence (.obj fields) = .ok true := by
    rw [hasEvidence, (Dict.contains_iff fields _).mpr hkey]
    rfl
  obtain ⟨named, hnamed, h⟩ := Except.bind_eq_ok.mp h
  rw [hnames] at hnamed
  cases hnamed
  obtain ⟨⟨fields', after⟩, hclaim, h⟩ := Except.bind_eq_ok.mp h
  rw [Except.pure_eq_ok] at h
  cases h
  exact ⟨fields, fields', rfl, rfl, hclaim⟩

/-- What one turn of the loop claims. -/
lemma groupFinding_spec (hst : st.WellFormed) {claimed claimed' : List ℕ} {finding finding' : Json}
    (hev : NamesEvidence finding)
    (h : groupFinding env st claimed finding = .ok (finding', claimed')) :
    ∃ ids, claimed' = claimed ++ ids ∧ (∀ id ∈ ids, id ∉ claimed) ∧
      Shares st [finding'] ids := by
  obtain ⟨fields, fields', rfl, rfl, hclaim⟩ := groupFinding_eq_ok hev h
  obtain ⟨ids, rfl, hnodup, hids, hevidence, haccounted⟩ := claimEntries_spec hst hclaim
  refine ⟨ids, rfl, fun id hid => (hids id hid).2, hnodup, fun id hid => (hids id hid).1, ?_, ?_⟩
  · rw [List.flatMap_singleton, hevidence]
  · intro f hf
    rw [List.mem_singleton] at hf
    exact hf ▸ haccounted

/-- The loop over a list is a turn for its first finding and the loop over the rest. -/
lemma groupFindings_cons_eq_ok {claimed claimed' : List ℕ} {finding : Json}
    {rest found' : List Json}
    (h : groupFindings env st claimed (finding :: rest) = .ok (found', claimed')) :
    ∃ finding' after rest', groupFinding env st claimed finding = .ok (finding', after) ∧
      groupFindings env st after rest = .ok (rest', claimed') ∧ found' = finding' :: rest' := by
  rw [groupFindings] at h
  split at h
  · cases h
  · next finding' after hfinding =>
    split at h
    · cases h
    · next rest' after' hrest =>
      cases h
      exact ⟨finding', after, rest', hfinding, hrest, rfl⟩

/-- The loop over two lists, one after the other. -/
lemma groupFindings_append {claimed after claimed' : List ℕ} {found found₁ rest rest₁ : List Json}
    (h : groupFindings env st claimed found = .ok (found₁, after))
    (hrest : groupFindings env st after rest = .ok (rest₁, claimed')) :
    groupFindings env st claimed (found ++ rest) = .ok (found₁ ++ rest₁, claimed') := by
  induction found generalizing claimed found₁ with
  | nil =>
    simp only [groupFindings, Except.ok.injEq, Prod.mk.injEq] at h
    obtain ⟨rfl, rfl⟩ := h
    exact hrest
  | cons finding found ih =>
    obtain ⟨finding', between, found', hfinding, hfound, rfl⟩ := groupFindings_cons_eq_ok h
    rw [List.cons_append, groupFindings, hfinding]
    dsimp only
    rw [ih hfound]
    rfl

/-- The findings of a list claim entries nobody has claimed before, each entry once. -/
lemma groupFindings_spec (hst : st.WellFormed) {claimed claimed' : List ℕ}
    {found found' : List Json} (hev : ∀ finding ∈ found, NamesEvidence finding)
    (h : groupFindings env st claimed found = .ok (found', claimed')) :
    ∃ ids, claimed' = claimed ++ ids ∧ (∀ id ∈ ids, id ∉ claimed) ∧ Shares st found' ids := by
  induction found generalizing claimed found' with
  | nil =>
    simp only [groupFindings, Except.ok.injEq, Prod.mk.injEq] at h
    obtain ⟨rfl, rfl⟩ := h
    exact ⟨[], (List.append_nil _).symm, by simp, .nil⟩
  | cons finding rest ih =>
    obtain ⟨finding', after, rest', hfinding, hrest, rfl⟩ := groupFindings_cons_eq_ok h
    obtain ⟨ids, rfl, hfree, hshares⟩ :=
      groupFinding_spec hst (hev finding List.mem_cons_self) hfinding
    obtain ⟨ids', rfl, hfree', hshares'⟩ :=
      ih (fun f hf => hev f (List.mem_cons_of_mem _ hf)) hrest
    refine ⟨ids ++ ids', List.append_assoc _ _ _, ?_, ?_⟩
    · intro id hid
      rcases List.mem_append.mp hid with hid | hid
      · exact hfree id hid
      · exact fun hc => hfree' id hid (List.mem_append_left _ hc)
    · exact hshares.append hshares'
        fun id hid hc => hfree' id hid (List.mem_append_right _ hc)

/-- A text in the place of a finding claims nothing. -/
lemma groupFinding_text {s : PyStr} {claimed claimed' : List ℕ} {finding' : Json}
    (h : groupFinding env st claimed (.str s) = .ok (finding', claimed')) :
    claimed' = claimed := by
  obtain ⟨named, -, h⟩ := Except.bind_eq_ok.mp h
  split at h
  · exact absurd h Except.throw_ne_ok
  · rw [Except.pure_eq_ok] at h
    cases h
    rfl

lemma groupFindings_texts {items : List Json} (hitems : ∀ v ∈ items, ∃ s, v = .str s)
    {start after : Json × List ℕ}
    (h : items.foldlM (groupFinding env st ·.2 ·) start = .ok after) : after.2 = start.2 := by
  refine Except.foldlM_invariant (P := fun b => b.2 = start.2) ?_ rfl h
  intro b v c hv hb hstep
  obtain ⟨s, rfl⟩ := hitems v hv
  rw [← hb]
  exact groupFinding_text hstep

/-- What is no list is iterated as texts. -/
lemma texts_of_iter {v : Json} {items : List Json} (hne : ∀ xs, v ≠ .arr xs)
    (h : v.iter = .ok items) : ∀ x ∈ items, ∃ s, x = .str s := by
  intro x hx
  cases v with
  | arr xs => exact absurd rfl (hne xs)
  | obj fields =>
    cases h
    obtain ⟨p, -, rfl⟩ := List.mem_map.mp hx
    exact ⟨_, rfl⟩
  | str s =>
    cases h
    obtain ⟨c, -, rfl⟩ := List.mem_map.mp hx
    exact ⟨_, rfl⟩
  | null | bool | int | float => cases h

/-- The loop over one group is the loop over its findings; it leaves the other fields alone. -/
lemma reconcileGroup_eq_ok {name : PyStr} {result result' : Json.Fields}
    {claimed claimed' : List ℕ}
    (h : reconcileGroup env st result claimed name = .ok (result', claimed')) :
    groupFindings env st claimed (groupItems result name) =
        .ok (groupItems result' name, claimed') ∧
      ∀ other, other ≠ name → Dict.get? result' other = Dict.get? result other := by
  unfold reconcileGroup at h
  split at h
  · next hnone =>
    cases h
    have hgroup : groupItems result name = [] := by
      simp [groupItems, Json.Fields.get, Json.Fields.getD, hnone]
    rw [hgroup]
    exact ⟨rfl, fun _ _ => rfl⟩
  · next items hitems =>
    have hgroup : groupItems result name = items := by
      simp [groupItems, Json.Fields.get, Json.Fields.getD, hitems]
    split at h
    · cases h
    · next items' after hfound =>
      cases h
      refine ⟨?_, fun other hother => by simp [Dict.get?_set, hother]⟩
      rw [hgroup, hfound]
      simp [groupItems]
  · next v hne hget =>
    split at h
    · cases h
    · next after hafter =>
      cases h
      obtain ⟨items, hiter, hloop⟩ := Except.bind_eq_ok.mp hafter
      have hclaimed := groupFindings_texts (texts_of_iter hne hiter) hloop
      dsimp only at hclaimed
      have hgroup : groupItems result name = [] := by
        simp only [groupItems, Json.Fields.get, Json.Fields.getD, hget, Option.getD_some]
      rw [hgroup, hclaimed]
      exact ⟨rfl, fun _ _ => rfl⟩

/-! ## What the appended findings get -/

lemma mem_unclaimedIds (hst : st.WellFormed) {claimed : List ℕ} {id : ℕ} :
    id ∈ unclaimedIds st claimed ↔ id < st.totalEntries ∧ id ∉ claimed := by
  simp [unclaimedIds, keys_entryById hst]

lemma nodup_unclaimedIds (hst : st.WellFormed) (claimed : List ℕ) :
    (unclaimedIds st claimed).Nodup := by
  refine (List.perm_insertionSort _ _).nodup_iff.mpr (List.Nodup.filter _ ?_)
  rw [keys_entryById hst]
  exact List.nodup_range

lemma unclaimedByFamily_perm (st : Statistics) (claimed : List ℕ) :
    ((unclaimedByFamily st claimed).flatMap (·.2)).Perm (unclaimedIds st claimed) :=
  ((List.perm_insertionSort _ _).flatMap_right _).trans (Dict.groupBy_perm _ _)

/-- An appended finding has its entries and their counts. -/
lemma appendedFinding_spec {id : PyStr} {p : Presentation} {ids : List ℕ} {finding : Json.Fields}
    (h : appendedFinding env st id p ids = .ok finding) :
    evidenceIds (.obj finding) = intIds ids ∧ Accounted (.obj finding) := by
  obtain ⟨patternId, hpid, h⟩ := Except.bind_eq_ok.mp h
  rw [Except.pure_eq_ok] at h
  have hfield : ∀ k, Json.Fields.get finding k = ((Dict.get? finding k).getD .null) := fun _ => rfl
  have hev : evidenceIds (.obj finding) = intIds ids := by
    refine evidenceIds_of_field ?_
    rw [field_obj, hfield, ← h]
    simp [Dict.get?_cons]
  refine ⟨hev, fun hu => ?_, fun _ => ⟨?_, ?_, occurrenceCount st ids, ?_, ?_⟩⟩
  · rw [field_obj, hfield, ← h] at hu
    simp [Dict.get?_cons, isUnquantified_semantic hpid] at hu
  · rw [field_obj, hfield, hev, length_intIds, ← h]
    simp [Dict.get?_cons]
  · rw [field_obj, hfield, hev, length_intIds, ← h]
    simp [Dict.get?_cons]
  · rw [field_obj, hfield, ← h]
    simp [Dict.get?_cons]
  · rw [hev, length_intIds]
    exact occurrenceCount_le st ids

/-- Findings appended one for each of some lists of entries have the entries of these lists. -/
lemma mapM_appendedFinding_spec {items : List (PyStr × Presentation × List ℕ)}
    {found : List Json.Fields}
    (h : items.mapM (fun (family, p, ids) =>
      appendedFinding env st (py "recovered-" ++ family) p ids) = .ok found) :
    (found.map Json.obj).flatMap evidenceIds = intIds (items.flatMap (·.2.2)) ∧
      ∀ finding ∈ found.map Json.obj, Accounted finding := by
  have hall := Except.mapM_eq_ok.mp h
  clear h
  induction hall with
  | nil => exact ⟨rfl, by simp⟩
  | @cons item finding items found hfinding _ ih =>
    obtain ⟨hev, haccounted⟩ := appendedFinding_spec hfinding
    constructor
    · rw [List.map_cons, List.flatMap_cons, List.flatMap_cons, hev, ih.1, intIds, intIds, intIds,
        List.map_append]
    · intro f hf
      rw [List.map_cons, List.mem_cons] at hf
      rcases hf with rfl | hf
      · exact haccounted
      · exact ih.2 f hf

/-- The families with a presentation and the others together have all the entries. -/
lemma presented_perm (families : List (PyStr × List ℕ)) :
    ((families.filterMap fun f => (presentationOf f.1).map fun p => (f.1, p, f.2)).flatMap
        (·.2.2) ++
      (families.filter fun f => (presentationOf f.1).isNone).flatMap (·.2)).Perm
      (families.flatMap (·.2)) := by
  induction families with
  | nil => exact .refl _
  | cons f families ih =>
    cases hp : presentationOf f.1 with
    | none =>
      simp only [List.filterMap_cons, hp, Option.map_none, List.filter_cons, Option.isNone_none,
        if_true, List.flatMap_cons]
      refine List.Perm.trans ?_ (ih.append_left f.2)
      rw [← List.append_assoc, ← List.append_assoc]
      exact List.perm_append_comm.append_right _
    | some p =>
      simp only [List.filterMap_cons, hp, Option.map_some, List.filter_cons, Option.isNone_some,
        Bool.false_eq_true, if_false, List.flatMap_cons, List.append_assoc]
      exact ih.append_left f.2

/-- The appended findings share the entries nobody has claimed. -/
lemma appendedFindings_spec (hst : st.WellFormed) {claimed : List ℕ} {found : List Json.Fields}
    (h : appendedFindings env st claimed = .ok found) :
    ∃ ids, ids.Perm (unclaimedIds st claimed) ∧ Shares st (found.map .obj) ids := by
  let families := unclaimedByFamily st claimed
  let presented := families.filterMap fun f => (presentationOf f.1).map fun p => (f.1, p, f.2)
  let remaining := (families.filter fun f => (presentationOf f.1).isNone).flatMap (·.2)
  have hperm : (presented.flatMap (·.2.2) ++ remaining).Perm (unclaimedIds st claimed) :=
    (presented_perm families).trans (unclaimedByFamily_perm st claimed)
  have hnodup := hperm.nodup_iff.mpr (nodup_unclaimedIds hst claimed)
  have hknown : ∀ id ∈ presented.flatMap (·.2.2) ++ remaining, id < st.totalEntries :=
    fun id hid => ((mem_unclaimedIds hst).mp (hperm.mem_iff.mp hid)).1
  obtain ⟨recovered, hrecovered, h⟩ := Except.bind_eq_ok.mp h
  obtain ⟨hev, haccounted⟩ := mapM_appendedFinding_spec hrecovered
  have hfound : (found.map Json.obj).flatMap evidenceIds =
      intIds (presented.flatMap (·.2.2) ++ remaining) ∧
        ∀ finding ∈ found.map Json.obj, Accounted finding := by
    dsimp only at h
    split at h
    · next hremaining =>
      rw [Except.pure_eq_ok] at h
      subst h
      have hnil : remaining = [] := hremaining
      rw [hnil, List.append_nil]
      exact ⟨hev, haccounted⟩
    · obtain ⟨other, hother, h⟩ := Except.bind_eq_ok.mp h
      rw [Except.pure_eq_ok] at h
      subst h
      obtain ⟨hev', haccounted'⟩ := appendedFinding_spec hother
      constructor
      · rw [List.map_append, List.flatMap_append, hev, List.map_singleton, List.flatMap_singleton,
          hev', intIds, intIds, intIds, List.map_append]
      · intro f hf
        rw [List.map_append, List.mem_append] at hf
        rcases hf with hf | hf
        · exact haccounted f hf
        · rw [List.map_singleton, List.mem_singleton] at hf
          exact hf ▸ haccounted'
  exact ⟨_, hperm, hnodup, hknown, hfound.1, hfound.2⟩

/-! ## All findings together -/

lemma findings_eq (result : Json.Fields) :
    findings result =
      groupItems result (py "key_finds") ++ groupItems result (py "secondary_finds") := by
  simp [findings, groupNames]

lemma groupItems_congr {result result' : Json.Fields} {name : PyStr}
    (h : Json.Fields.get result' name = Json.Fields.get result name) :
    groupItems result' name = groupItems result name := by
  rw [groupItems, groupItems, h]

lemma groupItems_of_get? {result result' : Json.Fields} {name : PyStr}
    (h : Dict.get? result' name = Dict.get? result name) :
    groupItems result' name = groupItems result name := by
  refine groupItems_congr ?_
  rw [Json.Fields.get, Json.Fields.get, Json.Fields.getD, Json.Fields.getD, h]

lemma groupItems_set_self (result : Json.Fields) (name : PyStr) (items : List Json) :
    groupItems (Dict.set result name (.arr items)) name = items := by
  simp [groupItems]

/-- The group is a list, if the result has it at all. -/
def IsList (result : Json.Fields) (name : PyStr) : Prop :=
  ∃ items, result.getD name (.arr []) = .arr items

lemma isList_congr {result result' : Json.Fields} {name : PyStr}
    (h : Dict.get? result' name = Dict.get? result name) :
    IsList result' name ↔ IsList result name := by
  unfold IsList Json.Fields.getD
  rw [h]

/-- The loop over one group keeps its kind. -/
lemma isList_reconcileGroup {result out : Json.Fields} {name : PyStr} {claimed after : List ℕ}
    (h : reconcileGroup env st result claimed name = .ok (out, after)) :
    IsList out name ↔ IsList result name := by
  unfold reconcileGroup at h
  split at h
  · cases h
    exact Iff.rfl
  · next items hitems =>
    split at h
    · cases h
    · next found _ _ =>
      cases h
      constructor
      · intro _
        exact ⟨items, by simp [Json.Fields.getD, hitems]⟩
      · intro _
        exact ⟨found, by simp [Json.Fields.getD]⟩
  · split at h
    · cases h
    · cases h
      exact Iff.rfl

lemma groupItems_of_getD {result : Json.Fields} {name : PyStr} {items : List Json}
    (h : result.getD name (.arr []) = .arr items) : groupItems result name = items := by
  unfold Json.Fields.getD at h
  unfold groupItems Json.Fields.get Json.Fields.getD
  cases hget : Dict.get? result name with
  | none =>
    rw [hget] at h
    cases h
    rfl
  | some v =>
    rw [hget] at h
    rw [Option.getD_some] at h ⊢
    rw [h]

/-- The appended findings come after all others. Where there are any, they are put in a list. -/
lemma appendUnclaimed_eq_ok {claimed : List ℕ} {result result' : Json.Fields}
    (h : appendUnclaimed env st result claimed = .ok result') :
    ∃ found, appendedFindings env st claimed = .ok found ∧
      (found ≠ [] → IsList result (py "secondary_finds")) ∧
      groupItems result' (py "secondary_finds") =
        groupItems result (py "secondary_finds") ++ found.map .obj ∧
      groupItems result' (py "key_finds") = groupItems result (py "key_finds") := by
  unfold appendUnclaimed at h
  split at h
  · cases h
  · next happended =>
    cases h
    exact ⟨[], happended, fun hne => absurd rfl hne, by simp, rfl⟩
  · next found hne happended =>
    refine ⟨found, happended, ?_⟩
    split at h
    · next items hitems =>
      cases h
      refine ⟨fun _ => ⟨items, hitems⟩, ?_, groupItems_congr (by simp)⟩
      rw [groupItems_set_self, groupItems_of_getD hitems]
    · cases h

/-- **How reconciliation by entries goes.** The findings of both groups take their turns in order,
and the findings for what nobody has claimed come after them. -/
lemma reconcileEntryGrouped_groups {result out : Json.Fields}
    (h : reconcileEntryGrouped env st result = .ok out) :
    ∃ between claimed appended,
      groupFindings env st [] (groupItems result (py "key_finds")) =
        .ok (groupItems out (py "key_finds"), between) ∧
      (∃ found, groupFindings env st between (groupItems result (py "secondary_finds")) =
          .ok (found, claimed) ∧
        groupItems out (py "secondary_finds") = found ++ appended.map .obj) ∧
      appendedFindings env st claimed = .ok appended := by
  obtain ⟨⟨result₁, between⟩, h₁, h⟩ := Except.bind_eq_ok.mp h
  obtain ⟨⟨result₂, claimed⟩, h₂, h⟩ := Except.bind_eq_ok.mp h
  obtain ⟨result₃, h₃, h⟩ := Except.bind_eq_ok.mp h
  have hout := Except.pure_eq_ok.mp h
  obtain ⟨hloop₁, hframe₁⟩ := reconcileGroup_eq_ok h₁
  obtain ⟨hloop₂, hframe₂⟩ := reconcileGroup_eq_ok h₂
  obtain ⟨appended, happended, -, hsecondary, hkey⟩ := appendUnclaimed_eq_ok h₃
  have hout_items : ∀ {name : PyStr}, name ≠ py "total_entries" →
      groupItems out name = groupItems result₃ name := fun hname =>
    hout ▸ groupItems_congr (by simp [hname])
  rw [groupItems_of_get? (hframe₁ (py "secondary_finds") (by simp))] at hloop₂
  refine ⟨between, claimed, appended, ?_, ⟨_, hloop₂, ?_⟩, happended⟩
  · rw [hout_items (by simp), hkey, groupItems_of_get? (hframe₂ (py "key_finds") (by simp))]
    exact hloop₁
  · rw [hout_items (by simp), hsecondary]

/-- The findings take their turns, those of both groups in order, and the findings for what nobody
has claimed come after them. -/
lemma reconcileEntryGrouped_eq_ok {result out : Json.Fields}
    (h : reconcileEntryGrouped env st result = .ok out) :
    ∃ found claimed appended, groupFindings env st [] (findings result) = .ok (found, claimed) ∧
      appendedFindings env st claimed = .ok appended ∧
      findings out = found ++ appended.map .obj := by
  obtain ⟨between, claimed, appended, hkey, ⟨secondary, hsecondary, hout⟩, happended⟩ :=
    reconcileEntryGrouped_groups h
  refine ⟨groupItems out (py "key_finds") ++ secondary, claimed, appended, ?_, happended, ?_⟩
  · rw [findings_eq]
    exact groupFindings_append hkey hsecondary
  · rw [findings_eq, hout, List.append_assoc]

/-- **Every entry of the log belongs to one finding.** When every finding names evidence, the
findings of the result share the entries of the log. -/
theorem reconcileEntryGrouped_shares (hst : st.WellFormed) {result out : Json.Fields}
    (hev : ∀ finding ∈ findings result, NamesEvidence finding)
    (h : reconcileEntryGrouped env st result = .ok out) :
    ∃ ids, ids.Perm (List.range st.totalEntries) ∧ Shares st (findings out) ids := by
  obtain ⟨found, claimed, appended, hloop, happended, hfindings⟩ := reconcileEntryGrouped_eq_ok h
  obtain ⟨claimed', hclaimed, -, hshares⟩ := groupFindings_spec hst hev hloop
  rw [List.nil_append] at hclaimed
  subst hclaimed
  obtain ⟨ids, hperm, hshares'⟩ := appendedFindings_spec hst happended
  have hdisjoint : ∀ id ∈ ids, id ∉ claimed := fun id hid =>
    ((mem_unclaimedIds hst).mp (hperm.mem_iff.mp hid)).2
  have hall := hshares.append hshares' hdisjoint
  refine ⟨claimed ++ ids, ?_, hfindings ▸ hall⟩
  refine (List.perm_ext_iff_of_nodup hall.nodup List.nodup_range).mpr fun id => ?_
  rw [List.mem_append, hperm.mem_iff, mem_unclaimedIds hst, List.mem_range]
  constructor
  · rintro (hid | hid)
    · exact hshares.known id hid
    · exact hid.1
  · intro hid
    by_cases hc : id ∈ claimed
    · exact .inl hc
    · exact .inr ⟨hid, hc⟩

end Spec

/-! ## The partition -/

/-- The finding is quantified: its `pattern_ids` is not the marker. -/
def isQuantified (finding : Json) : Bool := !isUnquantified (field finding "pattern_ids")

/-- The count of a finding. -/
def countField (finding : Json) : ℤ := (asInt (field finding "count")).getD 0

section Partition

variable {env : Env} {st : Statistics}

lemma Accounted.count {finding : Json} (h : Accounted finding) (hq : isQuantified finding = true) :
    countField finding = (evidenceIds finding).length := by
  have hbalanced := h.quantified (by simpa [isQuantified] using hq)
  rw [countField, hbalanced.count]
  rfl

/-- The counts of the quantified findings add up to the entries. -/
lemma sum_countField {found : List Json} (h : ∀ finding ∈ found, Accounted finding) :
    ((found.filter isQuantified).map countField).sum = (found.flatMap evidenceIds).length := by
  induction found with
  | nil => rfl
  | cons finding found ih =>
    have hfirst := h finding List.mem_cons_self
    have hrest := ih fun f hf => h f (List.mem_cons_of_mem _ hf)
    rw [List.flatMap_cons, List.length_append, Nat.cast_add, ← hrest]
    cases hq : isQuantified finding with
    | true =>
      rw [List.filter_cons_of_pos hq, List.map_cons, List.sum_cons, hfirst.count hq]
    | false =>
      have hnone := hfirst.unquantified (by simpa [isQuantified] using hq)
      rw [List.filter_cons_of_neg (by simp [hq]), hnone]
      simp

/-- The first check takes a result to the path by entries as soon as a finding names evidence. -/
lemma anyEvidence_of_namesEvidence {found : List Json} (hne : found ≠ [])
    (hev : ∀ finding ∈ found, NamesEvidence finding) : anyEvidence found = .ok true := by
  cases found with
  | nil => exact absurd rfl hne
  | cons finding rest =>
    obtain ⟨fields, rfl, hkey⟩ := hev finding List.mem_cons_self
    rw [anyEvidence, hasEvidence, (Dict.contains_iff fields _).mpr hkey]
    rfl

lemma not_iterGroups_false {result : Json.Fields} {names : List PyStr}
    (hne : names.flatMap (groupItems result) ≠ [])
    (hev : ∀ finding ∈ names.flatMap (groupItems result), NamesEvidence finding) :
    iterGroups result names ≠ .ok false := by
  induction names with
  | nil => exact absurd rfl hne
  | cons name names ih =>
    intro h
    obtain ⟨items, hitems, h⟩ := Except.bind_eq_ok.mp h
    obtain ⟨found, hfound, h⟩ := Except.bind_eq_ok.mp h
    by_cases hgroup : groupItems result name = []
    · cases found with
      | true => cases h
      | false =>
        rw [List.flatMap_cons, hgroup, List.nil_append] at hne hev
        exact ih hne hev h
    · have hgroupItems : items = groupItems result name := by
        unfold groupItems Json.Fields.get at hgroup ⊢
        unfold Json.Fields.getD at hgroup hitems ⊢
        cases hget : Dict.get? result name with
        | none =>
          rw [hget] at hgroup
          exact absurd rfl hgroup
        | some v =>
          rw [hget] at hgroup hitems
          cases v with
          | arr xs =>
            cases hitems
            rfl
          | _ => exact absurd rfl hgroup
      rw [hgroupItems, anyEvidence_of_namesEvidence hgroup fun f hf =>
        hev f (by rw [List.flatMap_cons]; exact List.mem_append_left _ hf)] at hfound
      cases hfound
      cases h

/-- A result all of whose findings name evidence is reconciled by entries. -/
lemma reconcileEntryGrouped_of_namesEvidence {fallback : Bool} {result out left : Json.Fields}
    (hne : findings result ≠ []) (hev : ∀ finding ∈ findings result, NamesEvidence finding)
    (h : reconcileResult env st fallback result = .ok (out, left)) :
    reconcileEntryGrouped env st result = .ok out := by
  unfold reconcileResult at h
  split at h
  · cases h
  · obtain ⟨out', hout, h⟩ := Except.bind_eq_ok.mp h
    cases h
    exact hout
  · next hfalse => exact absurd hfalse (not_iterGroups_false hne hev)

/-- **Reconciliation by entries partitions the log.** For every log and every model result all of
whose findings name evidence, if reconciliation succeeds then the entry ids of the findings of its
result are pairwise disjoint and together exactly the entries of the log, every quantified finding
counts its entries and at most as many occurrences, and the counts add up. -/
theorem reconcileResult_partitions_entries (env : Env) (logText : PyStr) (st : Statistics)
    (hst : preprocessLog env logText = .ok st) (fallback : Bool) (result out left : Json.Fields)
    (hne : findings result ≠ []) (hev : ∀ finding ∈ findings result, NamesEvidence finding)
    (h : reconcileResult env st fallback result = .ok (out, left)) :
    (findings out).Pairwise (fun f g => ∀ i ∈ evidenceIds f, i ∉ evidenceIds g) ∧
      (∀ i, (∃ f ∈ findings out, i ∈ evidenceIds f) ↔ 0 ≤ i ∧ i < st.totalEntries) ∧
      (∀ f ∈ findings out, (evidenceIds f).Nodup ∧ (isQuantified f = true → Balanced f)) ∧
      (((findings out).filter isQuantified).map countField).sum = st.totalEntries := by
  have hwf := preprocessLog_wellFormed hst
  have hgroups := reconcileEntryGrouped_of_namesEvidence hne hev h
  obtain ⟨ids, hperm, hshares⟩ := reconcileEntryGrouped_shares hwf hev hgroups
  have hnodup : ((findings out).flatMap evidenceIds).Nodup := by
    rw [hshares.shared, intIds]
    exact hshares.nodup.map fun a b hab => by exact_mod_cast hab
  obtain ⟨hown, hpair⟩ := List.nodup_flatMap.mp hnodup
  refine ⟨?_, fun i => ?_, fun f hf => ⟨hown f hf, fun hq => ?_⟩, ?_⟩
  · exact hpair.imp fun hdisjoint i hi hj => hdisjoint hi hj
  · rw [← List.mem_flatMap, hshares.shared, mem_intIds]
    constructor
    · rintro ⟨id, hid, rfl⟩
      have hlt := List.mem_range.mp (hperm.mem_iff.mp hid)
      omega
    · rintro ⟨hi0, hi⟩
      exact ⟨i.toNat, hperm.mem_iff.mpr (List.mem_range.mpr (by omega)), by omega⟩
  · exact (hshares.accounted f hf).quantified (by simpa [isQuantified] using hq)
  · rw [sum_countField hshares.accounted, hshares.shared, length_intIds, hperm.length_eq,
      List.length_range]

/-- A run on a log and a result of a model, evaluated, with a property of its outcome. -/
lemma exists_run (env : Env) (logText : PyStr) (fallback : Bool) (result : Json.Fields)
    (p : Statistics → Json.Fields → Bool)
    (h : ((preprocessLog env logText).toOption.any fun st =>
      (reconcileResult env st fallback result).toOption.any fun r => p st r.1) = true) :
    ∃ st out left, preprocessLog env logText = .ok st ∧
      reconcileResult env st fallback result = .ok (out, left) ∧ p st out = true := by
  obtain ⟨st, hst, h⟩ := (Option.any_eq_true _ _).mp h
  obtain ⟨⟨out, left⟩, hout, h⟩ := (Option.any_eq_true _ _).mp h
  exact ⟨st, out, left, Except.eq_ok_iff_toOption.mpr hst, Except.eq_ok_iff_toOption.mpr hout, h⟩

/-- The library on ASCII texts, and the digests of the texts of `sampleLog` and `sampleResult`. -/
def sampleEnv : Env where
  repr := fun _ => []
  parseInt := fun _ => none
  floatComma := fun _ => []
  sha256Hex := fun text => py (
    if text = py "disk full" then
      "8c96d76f620269be0f4cbc27e6cb594426729e32474260ef82eb6fc24b2cba2f"
    else if text = py "user ok" then
      "46ef61a2e42b2a6d0d593ba545a79d4efeba1cb21456d8296a7ea2d07f3479f2"
    else if text = py "semantic-v1:f1" then
      "805750c8538837dd87e3e5217d0db3bea1cc312f4874eba58abc2f7006c91e35"
    else
      "b699a0dffb5f998d7e7796766e82f264546729ccc6ee598a831225dc5a335102")
  jsonLoads := fun _ => .error jsonDecodeError
  jsonDumps := fun _ => []
  casefold := fun text => text.map fun c => if 65 ≤ c ∧ c ≤ 90 then c + 32 else c
  upper := fun text => text.map fun c => if 97 ≤ c ∧ c ≤ 122 then c - 32 else c
  isWord := fun c => isAsciiLetter c || isAsciiDigit c || c == 95
  isDigit := isAsciiDigit
  caseVariants := fun c =>
    if 65 ≤ c ∧ c ≤ 90 then [c + 32] else if 97 ≤ c ∧ c ≤ 122 then [c - 32] else []
  fromIsoFormat := fun _ => none
  isoFormat := fun _ => []
  setOrder := List.eraseDups
  setOrder_perm := firstOccurrences_perm

/-- A log of two entries. -/
def sampleLog : PyStr := py "disk full\nuser ok"

/-- A result with one finding, which names the first of them. -/
def sampleResult : Json.Fields :=
  [(py "key_finds", .arr [.obj
    [(py "id", literal "f1"), (py "evidence_entry_ids", .arr [.int 0])]])]

/-- `reconcileResult_partitions_entries` speaks about `sampleResult`. -/
theorem sampleResult_partitions_entries :
    ∃ st out left, preprocessLog sampleEnv sampleLog = .ok st ∧
      reconcileResult sampleEnv st false sampleResult = .ok (out, left) ∧
      ∀ i, (∃ f ∈ findings out, i ∈ evidenceIds f) ↔ 0 ≤ i ∧ i < (st.totalEntries : ℤ) := by
  obtain ⟨st, out, left, hst, h, -⟩ := exists_run sampleEnv sampleLog false sampleResult
    (fun _ _ => true) (by decide +kernel)
  refine ⟨st, out, left, hst, h, ?_⟩
  exact (reconcileResult_partitions_entries sampleEnv sampleLog st hst false sampleResult out
    left (by simp [findings, groupNames, sampleResult, groupItems, Json.Fields.get,
      Json.Fields.getD, Dict.get?_cons])
    (by
      intro f hf
      simp [findings, groupNames, sampleResult, groupItems, Json.Fields.get,
        Json.Fields.getD, Dict.get?_cons] at hf
      subst hf
      exact ⟨_, rfl, by decide⟩) h).2.1

end Partition

end Triage
