import NocReport.Triage.Rerun

set_option relaxedAutoImplicit false
set_option autoImplicit false

/-!
# Reconciling by entries again

A result that has been reconciled by entries gives each entry of the log to one finding, whole
families at a time. So every finding claims the same entries when it is reconciled again, nothing
is left to append, and all that changes is the order in which a finding lists its entries.

## Main definitions

* `Triage.Claims` — the entries a finding has claimed, with the counts of the finding.
* `Triage.Partitioned` — a result whose findings have claimed the entries of the log.
* `Triage.Reordered` — a finding with its entries in another order.

## Main results

* `Triage.reconcileEntryGrouped_partitioned` — what reconciliation by entries makes.
* `Triage.Partitioned.rerun` — reconciling it again.
-/

namespace Triage

variable {env : Env} {st : Statistics}

/-! ## The fields of a finding with entries -/

section Fields

variable {fields : Json.Fields} {patternId : PyStr} {ids ids' : List ℕ}

/-- What a finding gets with its entries. -/
def quantities (st : Statistics) (patternId : PyStr) (ids : List ℕ) : List (PyStr × Json) :=
  [(py "pattern_ids", texts [patternId]), (py "evidence_entry_ids", entryIds ids),
    (py "physical_entry_count", .int ids.length),
    (py "occurrence_count", .int (occurrenceCount st ids)), (py "count", .int ids.length),
    (py "percentage", percentage ids.length st.totalEntries)]

lemma quantify_eq_setAll (st : Statistics) (fields : Json.Fields) (patternId : PyStr) (ids : List ℕ) :
    quantify st fields patternId ids = Dict.setAll fields (quantities st patternId ids) := rfl

lemma nodup_quantities (st : Statistics) (patternId : PyStr) (ids : List ℕ) :
    ((quantities st patternId ids).map (·.1)).Nodup := by
  simp [quantities]

lemma quantify_eq_self_iff : quantify st fields patternId ids = fields ↔
    ∀ p ∈ quantities st patternId ids, Dict.get? fields p.1 = some p.2 := by
  rw [quantify_eq_setAll, Dict.setAll_eq_self_iff (nodup_quantities st patternId ids)]

lemma quantify_quantify : quantify st (quantify st fields patternId ids) patternId ids =
    quantify st fields patternId ids := by
  rw [quantify_eq_self_iff]
  exact fun p hp => Dict.get?_setAll (nodup_quantities st patternId ids) hp

lemma occurrenceCount_perm (h : ids.Perm ids') :
    occurrenceCount st ids = occurrenceCount st ids' := by
  rw [occurrenceCount, occurrenceCount, List.toFinset_eq_of_perm _ _ (h.map _)]

/-- The same entries in another order change nothing but their list. -/
lemma quantify_of_perm (hfields : quantify st fields patternId ids = fields) (h : ids'.Perm ids) :
    quantify st fields patternId ids' =
      Dict.set fields (py "evidence_entry_ids") (entryIds ids') := by
  rw [quantify_eq_self_iff] at hfields
  simp only [quantities, List.forall_mem_cons] at hfields
  obtain ⟨hpattern, -, hphysical, hoccurrence, hcount, hpercentage, -⟩ := hfields
  have hkept : ∀ {key : PyStr} {v : Json}, key ≠ py "evidence_entry_ids" →
      Dict.get? fields key = some v →
      Dict.set (Dict.set fields (py "evidence_entry_ids") (entryIds ids')) key v =
        Dict.set fields (py "evidence_entry_ids") (entryIds ids') :=
    fun hne hget => Dict.set_eq_self ((Dict.get?_set_of_ne _ _ hne).trans hget)
  rw [quantify, h.length_eq, occurrenceCount_perm h, Dict.set_eq_self hpattern,
    hkept (by decide) hphysical, hkept (by decide) hoccurrence, hkept (by decide) hcount,
    hkept (by decide) hpercentage]

end Fields

/-! ## What findings have claimed -/

/-- A finding has claimed some entries: whole families, with the counts of them all. -/
structure Claims (env : Env) (st : Statistics) (finding : Json) (ids : List ℕ) : Prop where
  evidence : evidenceIds finding = intIds ids
  closed : Closed st ids
  quantified : ids ≠ [] → ∃ fields patternId, finding = .obj fields ∧
    semanticPatternId env (Json.Fields.get fields (py "id")) = .ok patternId ∧
    quantify st fields patternId ids = fields

section Claims

variable {finding finding' : Json} {found found' : List Json} {claimed claimed' : List ℕ}

lemma evidenceIds_of_not (h : ¬ NamesEvidence finding) : evidenceIds finding = [] := by
  cases finding with
  | obj fields =>
    have hnone := (Dict.get?_eq_none_iff _ _).mpr (not_namesEvidence_obj.mp h)
    rw [evidenceIds, field_obj, Json.Fields.get, Json.Fields.getD, hnone]
    rfl
  | null | bool | int | float | str | arr => rfl

/-- A finding that names no evidence is left alone. -/
lemma groupFinding_of_not (hev : ¬ NamesEvidence finding)
    (h : groupFinding env st claimed finding = .ok (finding', claimed')) :
    finding' = finding ∧ claimed' = claimed := by
  obtain ⟨named, hnamed, h'⟩ := Except.bind_eq_ok.mp h
  cases named with
  | true => exact absurd (namesEvidence_of_groupFinding h hnamed) hev
  | false =>
    cases h'
    exact ⟨rfl, rfl⟩

lemma namesEvidence_of_claimEntries {fields fields' : Json.Fields}
    (hkey : py "evidence_entry_ids" ∈ Dict.keys fields)
    (h : claimEntries env st claimed fields = .ok (fields', claimed')) :
    py "evidence_entry_ids" ∈ Dict.keys fields' := by
  obtain ⟨ids, -, -, -, hfields'⟩ := claimEntries_eq_ok h
  rcases hfields' with ⟨-, rfl⟩ | ⟨patternId, -, rfl⟩
  · simp [unquantify, Dict.mem_keys_set, hkey]
  · simp [quantify, Dict.mem_keys_set]

/-- What a turn of the loop claims. -/
lemma groupFinding_claims (hst : st.WellFormed) (hclosed : Closed st claimed)
    (h : groupFinding env st claimed finding = .ok (finding', claimed')) :
    (NamesEvidence finding → NamesEvidence finding') ∧ ∃ ids, Claims env st finding' ids ∧
      claimed' = claimed ++ ids ∧ ids.Nodup ∧ ∀ id ∈ ids, id < st.totalEntries ∧ id ∉ claimed := by
  by_cases hev : NamesEvidence finding
  · obtain ⟨fields, fields', rfl, rfl, hclaim⟩ := groupFinding_eq_ok hev h
    have hkey := not_not.mp (not_namesEvidence_obj.not.mp (not_not.mpr hev))
    refine ⟨fun _ => ⟨fields', rfl, namesEvidence_of_claimEntries hkey hclaim⟩, ?_⟩
    obtain ⟨ids, hids, hfree, rfl, hfields'⟩ := claimEntries_eq_ok hclaim
    obtain ⟨ids', hids', -, -, hevidence⟩ := evidenceIds_of_claimEntries hst hclaim
    rw [hids] at hids'
    cases hids'
    have hwhole := expandIds_of_free (free_expandIds hst hclosed hfree)
    refine ⟨expandIds st claimed ids, ⟨hevidence, hwhole ▸ closed_expandIds hst ids, fun hne => ?_⟩,
      rfl, nodup_expandIds st claimed ids, fun id hid =>
        ⟨lt_of_mem_expandIds hst hid, ((mem_expandIds hst).mp hid).1⟩⟩
    rcases hfields' with ⟨hnone, -⟩ | ⟨patternId, hpatternId, rfl⟩
    · exact absurd hnone hne
    · refine ⟨_, patternId, rfl, ?_, quantify_quantify⟩
      simpa [quantify] using hpatternId
  · obtain ⟨rfl, rfl⟩ := groupFinding_of_not hev h
    refine ⟨id, [], ⟨evidenceIds_of_not hev, closed_nil st, fun hne => absurd rfl hne⟩,
      (List.append_nil _).symm, List.nodup_nil, fun id hid => absurd hid List.not_mem_nil⟩

/-- What the loop claims: every finding has its share. -/
lemma groupFindings_claims (hst : st.WellFormed) (hclosed : Closed st claimed)
    (hnodup : claimed.Nodup) (h : groupFindings env st claimed found = .ok (found', claimed')) :
    ((∃ f ∈ found, NamesEvidence f) → ∃ f ∈ found', NamesEvidence f) ∧ claimed'.Nodup ∧
      ∃ shares, List.Forall₂ (Claims env st) found' shares ∧ claimed' = claimed ++ shares.flatten ∧
        ∀ id ∈ shares.flatten, id < st.totalEntries := by
  induction found generalizing claimed found' with
  | nil =>
    cases h
    exact ⟨id, hnodup, [], .nil, (List.append_nil _).symm, by simp⟩
  | cons finding rest ih =>
    obtain ⟨finding', after, rest', hfinding, hrest, rfl⟩ := groupFindings_cons_eq_ok h
    obtain ⟨hnamed, ids, hclaims, rfl, hids, hfree⟩ := groupFinding_claims hst hclosed hfinding
    have hafter : (claimed ++ ids).Nodup := List.nodup_append.mpr
      ⟨hnodup, hids, fun a ha b hb hab => (hfree b hb).2 (hab ▸ ha)⟩
    obtain ⟨hnamed', hclaimed', shares, hshares, rfl, hknown⟩ :=
      ih (hclosed.append hclaims.closed) hafter hrest
    refine ⟨?_, hclaimed', ids :: shares, .cons hclaims hshares, by simp, ?_⟩
    · simp only [List.exists_mem_cons_iff]
      exact Or.imp hnamed hnamed'
    · rw [List.flatten_cons, List.forall_mem_append]
      exact ⟨fun id hid => (hfree id hid).1, hknown⟩

end Claims

/-! ## What the appended findings have claimed -/

section Appended

variable {claimed ids : List ℕ}

lemma closed_flatMap {α : Type} {xs : List α} {f : α → List ℕ} (h : ∀ x ∈ xs, Closed st (f x)) :
    Closed st (xs.flatMap f) := by
  intro e he e' he' hsame hmem
  obtain ⟨x, hx, hmem⟩ := List.mem_flatMap.mp hmem
  exact List.mem_flatMap.mpr ⟨x, hx, h x hx e he e' he' hsame hmem⟩

lemma get?_entryById (hst : st.WellFormed) {e : Entry} (he : e ∈ st.entryManifest) :
    Dict.get? (entryById st) e.id = some e := by
  refine Dict.get?_of_mem ?_ ?_
  · rw [keys_entryById hst]
    exact List.nodup_range
  · rw [entryById_eq hst]
    exact List.mem_map_of_mem he

/-- The families nobody has claimed are left as wholes. -/
lemma closed_unclaimedByFamily (hst : st.WellFormed) (hclosed : Closed st claimed) :
    ∀ f ∈ unclaimedByFamily st claimed, Closed st f.2 := by
  intro f hf e he e' he' hsame hmem
  obtain ⟨family, group⟩ := f
  have hgroup := Dict.eq_filter_of_mem_groupBy _ ((List.mem_insertionSort _).mp hf)
  subst hgroup
  dsimp only at hmem ⊢
  rw [List.mem_filter, mem_unclaimedIds hst, get?_entryById hst he] at hmem
  rw [List.mem_filter, mem_unclaimedIds hst, get?_entryById hst he']
  obtain ⟨⟨-, hfree⟩, hfamily⟩ := hmem
  refine ⟨⟨lt_of_mem_manifest hst he', fun hclaimed => hfree ?_⟩, ?_⟩
  · exact hclosed e' he' e he hsame.symm hclaimed
  · simpa [hsame] using hfamily

lemma appendedFinding_claims {id : PyStr} {p : Presentation} {finding : Json.Fields}
    (hclosed : Closed st ids) (h : appendedFinding env st id p ids = .ok finding) :
    Claims env st (.obj finding) ids := by
  refine ⟨(appendedFinding_spec h).1, hclosed, fun _ => ?_⟩
  obtain ⟨patternId, hpatternId, h⟩ := Except.bind_eq_ok.mp h
  cases h
  refine ⟨_, patternId, rfl, ?_, ?_⟩
  · simpa [Json.Fields.get, Json.Fields.getD, Dict.get?_cons] using hpatternId
  · rw [quantify_eq_self_iff]
    simp [quantities, Dict.get?_cons]

/-- The findings that are appended have the entries nobody has claimed. -/
lemma appendedFindings_claims (hst : st.WellFormed) (hclosed : Closed st claimed)
    {found : List Json.Fields} (h : appendedFindings env st claimed = .ok found) :
    ∃ shares, List.Forall₂ (Claims env st) (found.map .obj) shares ∧
      shares.flatten.Perm (unclaimedIds st claimed) := by
  let families := unclaimedByFamily st claimed
  let presented := families.filterMap fun f => (presentationOf f.1).map fun p => (f.1, p, f.2)
  let remaining := (families.filter fun f => (presentationOf f.1).isNone).flatMap (·.2)
  have hperm : (presented.flatMap (·.2.2) ++ remaining).Perm (unclaimedIds st claimed) :=
    (presented_perm families).trans (unclaimedByFamily_perm st claimed)
  have hfamilies : ∀ f ∈ families, Closed st f.2 := closed_unclaimedByFamily hst hclosed
  have hpresented : ∀ item ∈ presented, Closed st item.2.2 := by
    intro item hitem
    obtain ⟨f, hf, hsome⟩ := List.mem_filterMap.mp hitem
    obtain ⟨p, -, rfl⟩ := Option.map_eq_some_iff.mp hsome
    exact hfamilies f hf
  obtain ⟨recovered, hrecovered, h⟩ := Except.bind_eq_ok.mp h
  have hshares : List.Forall₂ (Claims env st) (recovered.map .obj) (presented.map (·.2.2)) := by
    rw [List.forall₂_map_left_iff, List.forall₂_map_right_iff]
    refine List.Forall₂.flip ?_
    have hall := Except.mapM_eq_ok.mp hrecovered
    exact ((List.forall₂_and_left _ _).mpr ⟨hpresented, hall⟩).imp fun item finding hitem =>
      appendedFinding_claims hitem.1 hitem.2
  dsimp only at h
  split at h
  · next hremaining =>
    cases h
    refine ⟨_, hshares, ?_⟩
    rw [show remaining = [] from hremaining, List.append_nil, List.flatMap_def] at hperm
    exact hperm
  · obtain ⟨other, hother, h⟩ := Except.bind_eq_ok.mp h
    cases h
    have hclosed' : Closed st remaining := closed_flatMap fun f hf =>
      hfamilies f (List.mem_filter.mp hf).1
    refine ⟨presented.map (·.2.2) ++ [remaining], ?_, ?_⟩
    · rw [List.map_append]
      exact List.rel_append hshares (.cons (appendedFinding_claims hclosed' hother) .nil)
    · rw [List.flatten_append, List.flatten_singleton, ← List.flatMap_def]
      exact hperm

end Appended

/-! ## The whole -/

/-- A result whose findings have claimed the entries of the log, each of them once. -/
structure Partitioned (env : Env) (st : Statistics) (result : Json.Fields) : Prop where
  claims : ∃ shares, List.Forall₂ (Claims env st) (findings result) shares ∧
    shares.flatten.Perm (List.range st.totalEntries)
  total : Dict.get? result (py "total_entries") = some (.int st.totalEntries)

/-- **What reconciliation by entries makes.** -/
theorem reconcileEntryGrouped_partitioned (hst : st.WellFormed) {result out : Json.Fields}
    (h : reconcileEntryGrouped env st result = .ok out) :
    Partitioned env st out ∧
      ((∃ f ∈ findings result, NamesEvidence f) → ∃ f ∈ findings out, NamesEvidence f) := by
  obtain ⟨found, claimed, appended, hloop, happended, hfindings⟩ := reconcileEntryGrouped_eq_ok h
  obtain ⟨hnamed, hnodup, shares, hshares, hclaimed, hknown⟩ :=
    groupFindings_claims hst (closed_nil st) List.nodup_nil hloop
  rw [List.nil_append] at hclaimed
  subst hclaimed
  have hclosed : Closed st shares.flatten := by
    rw [← List.flatMap_id]
    refine closed_flatMap fun ids hids => ?_
    obtain ⟨f, -, hf⟩ := hshares.exists_left hids
    exact hf.closed
  obtain ⟨shares', hshares', hperm⟩ := appendedFindings_claims hst hclosed happended
  have hnodup' := hperm.nodup_iff.mpr (nodup_unclaimedIds hst shares.flatten)
  refine ⟨⟨⟨shares ++ shares', ?_, ?_⟩, ?_⟩, fun hev => ?_⟩
  · rw [hfindings]
    exact List.rel_append hshares hshares'
  · have hall : (shares.flatten ++ shares'.flatten).Nodup := by
      refine List.nodup_append.mpr ⟨hnodup, hnodup', ?_⟩
      rintro a ha b hb rfl
      exact ((mem_unclaimedIds hst).mp (hperm.mem_iff.mp hb)).2 ha
    rw [List.flatten_append, List.perm_ext_iff_of_nodup hall List.nodup_range]
    intro id
    rw [List.mem_append, hperm.mem_iff, mem_unclaimedIds hst, List.mem_range]
    constructor
    · rintro (hid | hid)
      · exact hknown id hid
      · exact hid.1
    · intro hid
      by_cases hc : id ∈ shares.flatten
      · exact .inl hc
      · exact .inr ⟨hid, hc⟩
  · obtain ⟨p₁, -, h⟩ := Except.bind_eq_ok.mp h
    obtain ⟨p₂, -, h⟩ := Except.bind_eq_ok.mp h
    obtain ⟨p₃, -, h⟩ := Except.bind_eq_ok.mp h
    cases h
    exact Dict.get?_set_self _ _ _
  · obtain ⟨f, hf, hnames⟩ := hnamed hev
    exact ⟨f, hfindings ▸ List.mem_append_left _ hf, hnames⟩

/-! ## Again -/

/-- A finding with its entries in another order. -/
def Reordered (finding finding' : Json) : Prop :=
  finding' = finding ∨ ∃ fields ids ids', finding = .obj fields ∧
    Dict.get? fields (py "evidence_entry_ids") = some (entryIds ids) ∧ ids'.Perm ids ∧
    finding' = .obj (Dict.set fields (py "evidence_entry_ids") (entryIds ids'))

/-- A result whose findings may list their entries in another order. -/
structure ReorderedResult (result result' : Json.Fields) : Prop where
  groups : ∀ name ∈ groupNames, ∃ items items', Dict.get? result name = some (.arr items) ∧
    Dict.get? result' name = some (.arr items') ∧ List.Forall₂ Reordered items items'
  others : ∀ key ∉ groupNames, Dict.get? result' key = Dict.get? result key

section Again

variable {finding : Json} {found : List Json} {ids claimed : List ℕ} {shares : List (List ℕ)}

/-- A list of entries of the log is read as it is. -/
lemma readEntryIds_entryIds (hst : st.WellFormed) (hnodup : ids.Nodup)
    (hknown : ∀ id ∈ ids, id < st.totalEntries) : readEntryIds st (entryIds ids) = .ok ids := by
  have hints : (intIds ids).eraseDups = intIds ids := by
    refine List.eraseDups_of_nodup (hnodup.map fun a b hab => ?_)
    exact_mod_cast hab
  refine Except.bind_eq_ok.mpr ⟨_, rfl, Except.bind_eq_ok.mpr ⟨intIds ids, ?_, ?_⟩⟩
  · rw [Except.mapM_eq_ok, intIds, List.forall₂_map_left_iff, List.forall₂_map_right_iff,
      List.forall₂_same]
    exact fun id _ => rfl
  · rw [hints, Except.mapM_eq_ok, intIds, List.forall₂_map_left_iff, List.forall₂_same]
    intro id hid
    have hcontains : Dict.contains (entryById st) id = true := by
      rw [Dict.contains_iff, keys_entryById hst]
      exact List.mem_range.mpr (hknown id hid)
    rw [if_pos ⟨Int.natCast_nonneg id, by simpa using hcontains⟩]
    rfl

/-- Whole families that are free are expanded to themselves. -/
lemma expandIds_perm (hst : st.WellFormed) (hclosed : Closed st ids) (hnodup : ids.Nodup)
    (hknown : ∀ id ∈ ids, id < st.totalEntries) (hfree : ∀ id ∈ ids, id ∉ claimed) :
    (expandIds st claimed ids).Perm ids := by
  rw [List.perm_ext_iff_of_nodup (nodup_expandIds st claimed ids) hnodup]
  intro id
  constructor
  · intro hid
    obtain ⟨-, i, hi, e, he, rfl, e', he', hsame, rfl⟩ := (mem_expandIds hst).mp hid
    exact hclosed e he e' he' hsame.symm hi
  · exact subset_expandIds hst hknown hfree

/-- The turn of a finding that has claimed entries before. -/
lemma Claims.again (hst : st.WellFormed) (h : Claims env st finding ids) (hnodup : ids.Nodup)
    (hknown : ∀ id ∈ ids, id < st.totalEntries) (hfree : ∀ id ∈ ids, id ∉ claimed)
    (hfinding : ∃ fields, finding = .obj fields)
    (hnamed : NamesEvidence finding → evidenceIds finding ≠ []) :
    ∃ finding' ids', groupFinding env st claimed finding = .ok (finding', claimed ++ ids') ∧
      ids'.Perm ids ∧ Reordered finding finding' := by
  by_cases hev : NamesEvidence finding
  · have hne : ids ≠ [] := by
      rintro rfl
      exact hnamed hev h.evidence
    obtain ⟨fields, patternId, rfl, hpatternId, hquantified⟩ := h.quantified hne
    have hkey := not_not.mp (not_namesEvidence_obj.not.mp (not_not.mpr hev))
    have hget := quantify_eq_self_iff.mp hquantified (py "evidence_entry_ids", entryIds ids)
      (by simp [quantities])
    have hperm := expandIds_perm hst h.closed hnodup hknown hfree
    refine ⟨_, _, (groupFinding_obj hkey).mpr ⟨_, rfl, claimEntries_eq_ok_iff.mpr
      ⟨ids, ?_, hfree, ?_, rfl⟩⟩, hperm, .inr ⟨fields, ids, _, rfl, hget, hperm, rfl⟩⟩
    · rw [get_of_get? hget]
      exact readEntryIds_entryIds hst hnodup hknown
    · have hne' : expandIds st claimed ids ≠ [] := fun hnil => hne (hnil ▸ hperm).nil_eq.symm
      rw [withEntries, if_neg hne', hpatternId, Except.ok_bind, quantify_of_perm hquantified hperm]
      rfl
  · obtain ⟨fields, rfl⟩ := hfinding
    have hnone := h.evidence
    rw [evidenceIds_of_not hev] at hnone
    have hids : ids = [] := List.map_eq_nil_iff.mp hnone.symm
    refine ⟨.obj fields, [], ?_, hids ▸ .refl [], .inl rfl⟩
    have hcontains : Dict.contains fields (py "evidence_entry_ids") = false := by
      rw [← Bool.not_eq_true, Dict.contains_iff]
      exact not_namesEvidence_obj.mp hev
    rw [groupFinding, hasEvidence, hcontains, List.append_nil]
    rfl

/-- The loop over findings that have claimed entries before. -/
lemma groupFindings_again (hst : st.WellFormed) (h : List.Forall₂ (Claims env st) found shares)
    (hnodup : (claimed ++ shares.flatten).Nodup)
    (hknown : ∀ id ∈ shares.flatten, id < st.totalEntries)
    (hfound : ∀ f ∈ found, (∃ fields, f = .obj fields) ∧
      (NamesEvidence f → evidenceIds f ≠ [])) :
    ∃ found' claimed', groupFindings env st claimed found = .ok (found', claimed') ∧
      claimed'.Perm (claimed ++ shares.flatten) ∧ List.Forall₂ Reordered found found' := by
  induction h generalizing claimed with
  | nil => exact ⟨[], claimed, rfl, by simp, .nil⟩
  | @cons finding ids found shares hfinding _ ih =>
    rw [List.flatten_cons, ← List.append_assoc] at hnodup
    rw [List.flatten_cons, List.forall_mem_append] at hknown
    obtain ⟨⟨hobject, hnamed⟩, hfound⟩ := List.forall_mem_cons.mp hfound
    have hown := List.nodup_append.mp (List.nodup_append.mp hnodup).1
    obtain ⟨finding', ids', hturn, hperm, hreordered⟩ := hfinding.again hst hown.2.1 hknown.1
      (fun id hid hclaimed => hown.2.2 id hclaimed id hid rfl) hobject hnamed
    have hafter := (hperm.append_left claimed).append_right shares.flatten
    obtain ⟨found', claimed', hloop, hall, hreordered'⟩ :=
      ih (hafter.nodup_iff.mpr hnodup) hknown.2 hfound
    refine ⟨finding' :: found', claimed', ?_, ?_, .cons hreordered hreordered'⟩
    · rw [groupFindings, hturn]
      dsimp only
      rw [hloop]
    · rw [List.flatten_cons, ← List.append_assoc]
      exact hall.trans hafter

/-- The loop over one group of such findings. -/
lemma reconcileGroup_again (hst : st.WellFormed) {result : Json.Fields} {name : PyStr}
    {items : List Json} (hitems : Dict.get? result name = some (.arr items))
    (h : List.Forall₂ (Claims env st) items shares) (hnodup : (claimed ++ shares.flatten).Nodup)
    (hknown : ∀ id ∈ shares.flatten, id < st.totalEntries)
    (hfound : ∀ f ∈ items, (∃ fields, f = .obj fields) ∧
      (NamesEvidence f → evidenceIds f ≠ [])) :
    ∃ items' claimed', reconcileGroup env st result claimed name =
        .ok (Dict.set result name (.arr items'), claimed') ∧
      claimed'.Perm (claimed ++ shares.flatten) ∧ List.Forall₂ Reordered items items' := by
  obtain ⟨items', claimed', hloop, hperm, hreordered⟩ :=
    groupFindings_again hst h hnodup hknown hfound
  refine ⟨items', claimed', ?_, hperm, hreordered⟩
  rw [reconcileGroup, hitems]
  dsimp only
  rw [hloop]

/-- Nothing is appended when everything is claimed. -/
lemma appendUnclaimed_of_claimed (hst : st.WellFormed)
    (h : claimed.Perm (List.range st.totalEntries)) (result : Json.Fields) :
    appendUnclaimed env st result claimed = .ok result := by
  have hnone : unclaimedIds st claimed = [] := by
    refine List.eq_nil_iff_forall_not_mem.mpr fun id hid => ?_
    obtain ⟨hlt, hfree⟩ := (mem_unclaimedIds hst).mp hid
    exact hfree (h.mem_iff.mpr (List.mem_range.mpr hlt))
  have happended : appendedFindings env st claimed = .ok [] := by
    have hfamilies : unclaimedByFamily st claimed = [] := by
      rw [unclaimedByFamily, hnone]
      rfl
    rw [appendedFindings, hfamilies]
    rfl
  rw [appendUnclaimed, happended]

/-- **A result that is reconciled by entries again is only reordered.** -/
theorem Partitioned.rerun (hst : st.WellFormed) {result : Json.Fields}
    (h : Partitioned env st result)
    (hgroups : ∀ name ∈ groupNames, ∃ items, Dict.get? result name = some (.arr items))
    (hfound : ∀ f ∈ findings result, (∃ fields, f = .obj fields) ∧
      (NamesEvidence f → evidenceIds f ≠ [])) :
    ∃ out, reconcileEntryGrouped env st result = .ok out ∧ ReorderedResult result out := by
  obtain ⟨key, hkey⟩ := hgroups (py "key_finds") (by decide)
  obtain ⟨secondary, hsecondary⟩ := hgroups (py "secondary_finds") (by decide)
  have hfindings : findings result = key ++ secondary := by
    rw [findings_eq, groupItems, groupItems, get_of_get? hkey, get_of_get? hsecondary]
  obtain ⟨shares, hshares, hrange⟩ := h.claims
  rw [hfindings] at hshares hfound
  obtain ⟨first, second, rfl, hfirst, hsecond⟩ := hshares.exists_append
  obtain ⟨hfoundKey, hfoundSecondary⟩ := List.forall_mem_append.mp hfound
  rw [List.flatten_append] at hrange
  have hnodup := hrange.nodup_iff.mpr List.nodup_range
  have hknown := List.forall_mem_append.mp fun id hid =>
    List.mem_range.mp (hrange.mem_iff.mp hid)
  have hstart : ([] ++ first.flatten).Nodup := (List.nodup_append.mp hnodup).1
  obtain ⟨key', claimed₁, hloop, hperm, hreordered⟩ :=
    reconcileGroup_again hst hkey hfirst hstart hknown.1 hfoundKey
  rw [List.nil_append] at hperm
  have hsecondary' : Dict.get? (Dict.set result (py "key_finds") (.arr key'))
      (py "secondary_finds") = some (.arr secondary) :=
    (Dict.get?_set_of_ne _ _ (by decide)).trans hsecondary
  obtain ⟨secondary', claimed₂, hloop', hperm', hreordered'⟩ := reconcileGroup_again hst
    hsecondary' hsecond ((hperm.append_right _).nodup_iff.mpr hnodup) hknown.2 hfoundSecondary
  have hall := (hperm'.trans (hperm.append_right _)).trans hrange
  have htotal : Dict.get? (Dict.set (Dict.set result (py "key_finds") (.arr key'))
      (py "secondary_finds") (.arr secondary')) (py "total_entries") =
        some (.int st.totalEntries) := by
    rw [Dict.get?_set_of_ne _ _ (by decide), Dict.get?_set_of_ne _ _ (by decide), h.total]
  refine ⟨Dict.set (Dict.set result (py "key_finds") (.arr key')) (py "secondary_finds")
    (.arr secondary'), ?_, fun name hname => ?_, fun name hname => ?_⟩
  · rw [reconcileEntryGrouped, hloop, Except.ok_bind]
    dsimp only
    rw [hloop', Except.ok_bind]
    dsimp only
    rw [appendUnclaimed_of_claimed hst hall, Except.ok_bind, Dict.set_eq_self htotal]
    rfl
  · simp only [groupNames, List.mem_cons, List.not_mem_nil, or_false] at hname
    rcases hname with rfl | rfl
    · exact ⟨key, key', hkey, (Dict.get?_set_of_ne _ _ (by decide)).trans
        (Dict.get?_set_self _ _ _), hreordered⟩
    · exact ⟨secondary, secondary', hsecondary, Dict.get?_set_self _ _ _, hreordered'⟩
  · simp only [groupNames, List.mem_cons, List.not_mem_nil, or_false, not_or] at hname
    rw [Dict.get?_set_of_ne _ _ hname.2, Dict.get?_set_of_ne _ _ hname.1]

end Again

/-! ## Other details -/

section Details

variable {finding finding' : Json} {ids : List ℕ}

/-- A finding with other details has claimed the same entries. -/
lemma Claims.reword (h : Claims env st finding ids) (hreworded : Reworded finding finding') :
    Claims env st finding' ids := by
  have hevidence : Triage.field finding' "evidence_entry_ids" =
      Triage.field finding "evidence_entry_ids" := hreworded.field (by decide)
  refine ⟨?_, h.closed, fun hne => ?_⟩
  · rw [← h.evidence, evidenceIds, evidenceIds, hevidence]
  · obtain ⟨fields, fields', rfl, rfl, hsame⟩ := hreworded
    obtain ⟨_, patternId, heq, hpatternId, hquantified⟩ := h.quantified hne
    cases heq
    refine ⟨fields', patternId, rfl, ?_, hsame.setAll (nodup_quantities st patternId ids) ?_
      hquantified⟩
    · rwa [get_congr (hsame (py "id") (by decide))]
    · simp [quantities, detailKeys]

lemma Partitioned.reword {result result' : Json.Fields} (h : Partitioned env st result)
    (hfound : List.Forall₂ Reworded (findings result) (findings result'))
    (htotal : Dict.get? result' (py "total_entries") = Dict.get? result (py "total_entries")) :
    Partitioned env st result' := by
  obtain ⟨shares, hshares, hrange⟩ := h.claims
  refine ⟨⟨shares, ?_, hrange⟩, htotal.trans h.total⟩
  clear hrange
  generalize findings result = found at hfound hshares
  generalize findings result' = found' at hfound ⊢
  induction hfound generalizing shares with
  | nil => exact hshares
  | cons hfinding _ ih =>
    cases hshares with
    | cons hclaims hshares => exact .cons (hclaims.reword hfinding) (ih _ hshares)

end Details

end Triage
