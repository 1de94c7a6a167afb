import NocReport.Jobs.Delivery
import NocReport.Triage.EntryRerun

set_option relaxedAutoImplicit false
set_option autoImplicit false

/-!
# A log analysis that is delivered again

A worker can die between storing the result of a log analysis and completing the job. The job is
then delivered again, and `_artifact_exists_and_valid` (`bridge/noc_bridge/worker.py`) decides
whether the stored result stands: it is checked, reconciled and checked again.

## Main definitions

* `Triage.Settles` — what reconciliation makes, on either path.
* `Triage.storedIsValid`, `Triage.artifactExistsAndValid` — the check of the stored result.

## Main results

* `Triage.Validated.reorder` — the checks do not depend on the order of entries.
* `Triage.settles_of_processed` — every output of the loop is what reconciliation makes.
* `Triage.processLogTriageMessage_stands` — every output of the loop stands when its job is
  delivered again.
-/

namespace Triage

variable {env : Env} {st : Statistics}

/-! ## Another order of entries and the contract -/

section Contract

variable {finding finding' : Json} {ids ids' : List ℕ}

/-- The contract of a list of entries does not depend on their order. -/
lemma accepts_entryIds_perm (h : ids'.Perm ids)
    (haccepts : (Schema.all [.type [.array], .items naturalNumber, .minItems 1,
      .uniqueItems]).accepts (fun _ _ => true) (entryIds ids) = true) :
    (Schema.all [.type [.array], .items naturalNumber, .minItems 1, .uniqueItems]).accepts
      (fun _ _ => true) (entryIds ids') = true := by
  rw [Schema.accepts_all] at haccepts ⊢
  simp only [List.forall_mem_cons, List.not_mem_nil, false_imp_iff, implies_true,
    and_true] at haccepts ⊢
  obtain ⟨-, hitems, hmin, hunique⟩ := haccepts
  refine ⟨rfl, ?_, ?_, ?_⟩
  · rw [entryIds, Schema.accepts, List.all_eq_true] at hitems ⊢
    exact fun v hv => hitems v ((h.map _).mem_iff.mp hv)
  · rw [entryIds, Schema.accepts, List.length_map] at hmin ⊢
    rw [h.length_eq]
    exact hmin
  · have hequal : ∀ a b : ℕ, Json.equal (.int (a : ℤ)) (.int (b : ℤ)) = false ↔ a ≠ b := by
      intro a b
      rw [Json.equal, Json.number?, ne_comm]
      simp
    rw [entryIds, Schema.accepts, decide_eq_true_eq, List.pairwise_map] at hunique ⊢
    simp only [hequal] at hunique ⊢
    exact h.nodup_iff.mpr hunique

/-- A finding the contract accepts is accepted with its entries in another order. -/
lemma Reordered.accepts {detailLength : ℕ} (h : Reordered finding finding')
    (haccepts : (groupFindSchema detailLength).accepts (fun _ _ => true) finding = true) :
    (groupFindSchema detailLength).accepts (fun _ _ => true) finding' = true := by
  rcases h with rfl | ⟨fields, ids, ids', rfl, hget, hperm, rfl⟩
  · exact haccepts
  have hkey : py "evidence_entry_ids" ∈ Dict.keys fields := by
    by_contra hnone
    rw [(Dict.get?_eq_none_iff _ _).mpr hnone] at hget
    cases hget
  unfold groupFindSchema at haccepts ⊢
  rw [Schema.accepts_all] at haccepts ⊢
  simp only [List.forall_mem_cons, List.not_mem_nil, false_imp_iff, implies_true,
    and_true] at haccepts ⊢
  obtain ⟨hfind, hdetails⟩ := haccepts
  constructor
  · refine Schema.accepts_record_congr (fun k => ?_) (fun p hp v' hv' => ?_) hfind
    · rw [Dict.mem_keys_set]
      exact ⟨fun hk => hk.elim (fun hk => hk ▸ hkey) id, .inr⟩
    · by_cases hevidence : p.1 = py "evidence_entry_ids"
      · have hschema : p.2 = .all [.type [.array], .items naturalNumber, .minItems 1,
            .uniqueItems] := by
          simp only [findProperties, List.mem_cons, List.not_mem_nil, or_false] at hp
          rcases hp with rfl | rfl | rfl | rfl | rfl | rfl | rfl | rfl | rfl | rfl | rfl
          all_goals first | rfl | exact absurd hevidence (by decide)
        rw [hevidence, Dict.get?_set_self] at hv'
        cases hv'
        refine ⟨_, hevidence ▸ hget, fun haccepts => ?_⟩
        rw [hschema] at haccepts ⊢
        exact accepts_entryIds_perm hperm haccepts
      · rw [Dict.get?_set_of_ne _ _ hevidence] at hv'
        exact ⟨v', hv', id⟩
  · rw [Schema.accepts_properties] at hdetails ⊢
    intro p hp
    have hne : p.1 ≠ py "evidence_entry_ids" := by
      have hdetail : ∀ key ∈ ["detail_en", "detail_zh"], py key ≠ py "evidence_entry_ids" := by
        decide
      simp only [List.mem_cons, List.not_mem_nil, or_false] at hp
      rcases hp with rfl | rfl
      · exact hdetail "detail_en" (by simp)
      · exact hdetail "detail_zh" (by simp)
    have hdetail := hdetails p hp
    rw [Schema.accepts_property] at hdetail ⊢
    rw [Dict.get?_set_of_ne _ _ hne]
    exact hdetail

/-- A result the contract accepts is accepted with the entries of its findings in another order. -/
lemma ReorderedResult.accepts {result result' : Json.Fields} (h : ReorderedResult result result')
    (haccepts : outputSchema.accepts (fun _ _ => true) (.obj result) = true) :
    outputSchema.accepts (fun _ _ => true) (.obj result') = true := by
  refine Schema.accepts_record_congr (fun k => ?_) (fun p hp v' hv' => ?_) haccepts
  · rw [← not_iff_not, ← Dict.get?_eq_none_iff, ← Dict.get?_eq_none_iff]
    by_cases hk : k ∈ groupNames
    · obtain ⟨items, items', hget, hget', -⟩ := h.groups k hk
      rw [hget, hget']
      simp
    · rw [h.others k hk]
  · by_cases hname : p.1 ∈ groupNames
    · obtain ⟨items, items', hget, hget', hreordered⟩ := h.groups p.1 hname
      rw [hget'] at hv'
      cases hv'
      refine ⟨_, hget, fun haccepts => ?_⟩
      obtain ⟨detailLength, rest, hschema, hrest⟩ : ∃ detailLength rest, p.2 = Schema.all
          (.type [.array] :: .items (groupFindSchema detailLength) :: rest) ∧
            ∀ s ∈ rest, ∃ n, s = .minItems n := by
        simp only [groupNames, List.mem_cons, List.not_mem_nil, or_false] at hname
        simp only [outputProperties, List.mem_cons, List.not_mem_nil, or_false] at hp
        rcases hp with rfl | rfl | rfl | rfl | rfl | rfl | rfl
        case inr.inr.inr.inl => exact ⟨600, [.minItems 1], rfl, by simp⟩
        case inr.inr.inr.inr.inl => exact ⟨320, [], rfl, by simp⟩
        all_goals exact absurd hname (by decide)
      rw [hschema, Schema.accepts_all] at haccepts ⊢
      simp only [List.forall_mem_cons] at haccepts ⊢
      obtain ⟨-, hitems, hmin⟩ := haccepts
      refine ⟨rfl, ?_, fun s hs => ?_⟩
      · rw [Schema.accepts, List.all_eq_true] at hitems ⊢
        intro f' hf'
        obtain ⟨f, hf, hfinding⟩ := hreordered.exists_left hf'
        exact hfinding.accepts (hitems f hf)
      · obtain ⟨n, rfl⟩ := hrest s hs
        have hlength := hmin _ hs
        rw [Schema.accepts] at hlength ⊢
        rw [← hreordered.length_eq]
        exact hlength
    · rw [h.others _ hname] at hv'
      exact ⟨v', hv', id⟩

end Contract

/-! ## Another order of entries and the checks -/

section Checks

variable {finding finding' : Json} {found found' : List Json} {result result' : Json.Fields}
  {ids : List ℕ}

/-- The other fields of a finding. -/
lemma get_set_evidence (fields : Json.Fields) (v : Json) {key : String}
    (hkey : py key ≠ py "evidence_entry_ids") :
    Json.Fields.get (Dict.set fields (py "evidence_entry_ids") v) (py key) =
      Json.Fields.get fields (py key) := by
  rw [get_set, if_neg hkey]

/-- A list of entries is accepted when it has some, each of them once. -/
lemma validateEvidence_entryIds {path : PyStr} {fields : Json.Fields}
    (hget : Json.Fields.get fields (py "evidence_entry_ids") = entryIds ids) :
    validateEvidence path fields = .ok () ↔ ids ≠ [] ∧ ids.Nodup := by
  have hnatural : ∀ ids : List ℕ,
      (ids.map fun id : ℕ => Json.int (id : ℤ)).filterMap natural = ids := by
    intro ids
    induction ids with
    | nil => rfl
    | cons id ids ih => exact congrArg (List.cons id) ih
  unfold validateEvidence
  rw [hget, entryIds]
  cases ids with
  | nil => exact iff_of_false Except.throw_ne_ok fun h => h.1 rfl
  | cons id ids =>
    have hall := hnatural (id :: ids)
    rw [List.map_cons] at hall ⊢
    dsimp only
    rw [hall, Except.bind_eq_ok]
    simp only [refuse_eq_ok, bne_eq_false_iff_eq, List.length_cons, List.length_map, true_and,
      exists_const, ne_eq, reduceCtorEq, not_false_eq_true]
    constructor
    · exact fun h => List.nodup_of_length_eraseDups h
    · exact fun h => congrArg List.length (List.eraseDups_of_nodup h)

/-- A finding that is accepted is accepted with its entries in another order. -/
lemma Reordered.acceptedAlone {total : ℤ} {own : Seen} (h : Reordered finding finding')
    (halone : acceptedAlone env total finding = .ok own) :
    acceptedAlone env total finding' = .ok own := by
  rcases h with rfl | ⟨fields, ids, ids', rfl, hget, hperm, rfl⟩
  · exact halone
  have hsame := fun key hkey =>
    @get_set_evidence fields (entryIds ids') key hkey
  obtain ⟨id, patternIds, physical, hid, htexts, hpatternIds, hevidence, hphysical, hshares, rfl⟩ :=
    validateFinding_obj.mp halone
  refine validateFinding_obj.mpr ⟨id, patternIds, physical, ?_, fun field hfield => ?_, ?_, ?_, ?_,
    ?_, rfl⟩
  · unfold validateId at hid ⊢
    rw [hsame "id" (by decide)]
    exact hid
  · have hne : ∀ field ∈ ["label_zh", "label_en", "detail_zh", "detail_en"],
        py field ≠ py "evidence_entry_ids" := by decide
    have htext := htexts field hfield
    unfold validateText at htext ⊢
    rw [hsame field (hne field hfield)]
    exact htext
  · unfold validatePatternIds at hpatternIds ⊢
    rw [hsame "pattern_ids" (by decide)]
    exact hpatternIds
  · rw [validateEvidence_entryIds (get_of_get? hget)] at hevidence
    rw [validateEvidence_entryIds (by rw [get_set, if_pos rfl])]
    exact ⟨fun hnil => hevidence.1 (hnil ▸ hperm).nil_eq.symm, hperm.nodup_iff.mpr hevidence.2⟩
  · unfold validateEntryCounts at hphysical ⊢
    simp only [hsame "physical_entry_count" (by decide), hsame "occurrence_count" (by decide)]
    exact hphysical
  · unfold validateShares validateCount at hshares ⊢
    rw [hsame "pattern_ids" (by decide), hsame "count" (by decide), hsame "percentage" (by decide)]
    exact hshares

lemma FindingsAccepted.reorder {total : ℤ} {seen : Seen} (h : FindingsAccepted env total seen found)
    (hfound : List.Forall₂ Reordered found found') : FindingsAccepted env total seen found' := by
  have hidentity : found'.map (identityOf env total) = found.map (identityOf env total) := by
    refine hfound.map_eq fun f hf f' hreordered => ?_
    obtain ⟨own, hown⟩ := h.alone f hf
    rw [identityOf, identityOf, hown, hreordered.acceptedAlone hown]
  have hall : ∀ g : Seen → List PyStr, (found'.flatMap fun f => g (identityOf env total f)) =
      found.flatMap fun f => g (identityOf env total f) := by
    intro g
    rw [← List.flatMap_map (identityOf env total) g, ← List.flatMap_map (identityOf env total) g,
      hidentity]
  refine ⟨fun f' hf' => ?_, ?_, ?_⟩
  · obtain ⟨f, hf, hreordered⟩ := hfound.exists_left hf'
    obtain ⟨own, hown⟩ := h.alone f hf
    exact ⟨own, hreordered.acceptedAlone hown⟩
  · rw [hall Seen.ids]
    exact h.ids
  · rw [hall Seen.findingIds]
    exact h.findingIds

lemma compactDetails_reordered (suffix : String) (hsuffix : suffix ∈ ["_zh", "_en"])
    (h : List.Forall₂ Reordered found found') :
    compactDetails env suffix found' = compactDetails env suffix found := by
  have hne : ∀ suffix ∈ ["_zh", "_en"], py ("detail" ++ suffix) ≠ py "evidence_entry_ids" := by
    decide
  induction h with
  | nil => rfl
  | @cons f f' found found' hfinding _ ih =>
    unfold compactDetails at ih ⊢
    rw [List.filterMap_cons, List.filterMap_cons, ih]
    rcases hfinding with rfl | ⟨fields, ids, ids', rfl, -, -, rfl⟩
    · rfl
    · dsimp only
      rw [compactDetail, get_set_evidence fields _ (hne suffix hsuffix)]
      rfl

lemma Reordered.narrativesOf_eq (h : Reordered finding finding') :
    narrativesOf finding' = narrativesOf finding := by
  rcases h with rfl | ⟨fields, ids, ids', rfl, -, -, rfl⟩
  · rfl
  · have hne : ∀ key ∈ ["label_en", "label_zh", "detail_en", "detail_zh"],
        py key ≠ py "evidence_entry_ids" := by decide
    rw [narrativesOf, narrativesOf]
    exact List.map_congr_left fun key hkey => get_set_evidence fields _ (hne key hkey)

lemma ReorderedResult.groupItems (h : ReorderedResult result result') {name : PyStr}
    (hname : name ∈ groupNames) :
    List.Forall₂ Reordered (groupItems result name) (groupItems result' name) := by
  obtain ⟨items, items', hget, hget', hreordered⟩ := h.groups name hname
  rw [Triage.groupItems, Triage.groupItems, get_of_get? hget, get_of_get? hget']
  exact hreordered

lemma ReorderedResult.findings (h : ReorderedResult result result') :
    List.Forall₂ Reordered (findings result) (findings result') := by
  rw [findings_eq, findings_eq]
  exact List.rel_append (h.groupItems (by decide)) (h.groupItems (by decide))

/-- **The checks do not depend on the order of entries.** -/
theorem Validated.reorder (hresult : Validated env result) (h : ReorderedResult result result') :
    Validated env result' := by
  obtain ⟨total, haccepted⟩ := hresult.accepted
  have hsame : ∀ key : String, py key ∉ groupNames →
      Json.Fields.get result' (py key) = Json.Fields.get result (py key) :=
    fun key hkey => get_congr (h.others _ hkey)
  have hsummary : ∀ key ∈ ["summary_zh", "summary_en"],
      Json.Fields.get result' (py key) = Json.Fields.get result (py key) := by
    have hnot : ∀ key ∈ ["summary_zh", "summary_en"], py key ∉ groupNames := by decide
    exact fun key hkey => hsame key (hnot key hkey)
  refine ⟨h.accepts hresult.schema, total, ?_, fun key hkey => ?_, fun name hname => ?_,
    haccepted.accepted.reorder h.findings, fun limit hlimit finding' hfinding' => ?_,
    fun suffix hsuffix => ?_, ?_⟩
  · rw [hsame "total_entries" (by decide)]
    exact haccepted.total_eq
  · have hvalid := haccepted.summaries key hkey
    unfold validateSummary at hvalid ⊢
    rw [hsummary key hkey]
    exact hvalid
  · obtain ⟨items, items', -, hget', -⟩ := h.groups name hname
    exact ⟨items', get_of_get? hget'⟩
  · have hname : ∀ limit ∈ detailLimits, limit.1 ∈ groupNames := by decide
    obtain ⟨finding, hfinding, hreordered⟩ :=
      (h.groupItems (hname limit hlimit)).exists_left hfinding'
    rcases hreordered with heq | ⟨fields, ids, ids', rfl, -, -, heq⟩
    · exact haccepted.limits limit hlimit finding' (heq ▸ hfinding)
    · cases heq
      have hne : ∀ field ∈ ["detail_zh", "detail_en"], py field ≠ py "evidence_entry_ids" := by
        decide
      intro field hfield
      have hlimits := haccepted.limits limit hlimit fields hfinding field hfield
      unfold validateDetail at hlimits ⊢
      rw [get_set_evidence fields _ (hne field hfield)]
      exact hlimits
  · have hkey : ∀ suffix ∈ ["_zh", "_en"], "summary" ++ suffix ∈ ["summary_zh", "summary_en"] := by
      decide
    intro summary hget
    rw [hsummary _ (hkey suffix hsuffix)] at hget
    rw [compactDetails_reordered suffix hsuffix h.findings]
    exact haccepted.unrepeated suffix hsuffix summary hget
  · have htext : causationText result' = causationText result := by
      rw [causationText, causationText, List.flatMap_def, List.flatMap_def,
        h.findings.map_eq fun _ _ _ hreordered => hreordered.narrativesOf_eq,
        List.map_congr_left fun key hkey => hsame key ?_]
      revert key
      decide
    rw [htext]
    exact haccepted.causation

end Checks

/-! ## What reconciliation makes -/

section Settles

variable {fallback : Bool} {result out left : Json.Fields} {found : List Json}

/-- What reconciliation makes: by patterns a reconciled result without evidence, and by entries one
whose findings share the entries of the log. -/
def Settles (env : Env) (st : Statistics) (result : Json.Fields) : Prop :=
  (Reconciled st result ∧ ∀ f ∈ findings result, ¬ NamesEvidence f) ∨
    (Partitioned env st result ∧ ∃ f ∈ findings result, NamesEvidence f)

lemma hasEvidence_obj (fields : Json.Fields) :
    hasEvidence (.obj fields) = .ok (Dict.contains fields (py "evidence_entry_ids")) := rfl

lemma not_namesEvidence_of_anyEvidence (h : anyEvidence found = .ok false) :
    ∀ f ∈ found, ¬ NamesEvidence f := by
  induction found with
  | nil => simp
  | cons finding rest ih =>
    obtain ⟨named, hnamed, h⟩ := Except.bind_eq_ok.mp h
    cases named with
    | true => cases h
    | false =>
      refine List.forall_mem_cons.mpr ⟨?_, ih h⟩
      rintro ⟨fields, rfl, hkey⟩
      rw [hasEvidence_obj, (Dict.contains_iff _ _).mpr hkey] at hnamed
      cases hnamed

/-- The test for evidence of findings that are objects. -/
lemma anyEvidence_objects (h : ∀ f ∈ found, ∃ fields, f = .obj fields) :
    ∃ named, anyEvidence found = .ok named ∧ (named = true ↔ ∃ f ∈ found, NamesEvidence f) := by
  induction found with
  | nil => exact ⟨false, rfl, by simp⟩
  | cons finding rest ih =>
    obtain ⟨⟨fields, rfl⟩, hrest⟩ := List.forall_mem_cons.mp h
    obtain ⟨named, hnamed, hiff⟩ := ih hrest
    rw [anyEvidence, hasEvidence_obj, Except.ok_bind, List.exists_mem_cons_iff, ← hiff]
    cases hkey : Dict.contains fields (py "evidence_entry_ids") with
    | true => exact ⟨true, rfl, by simp [NamesEvidence, ← Dict.contains_iff, hkey]⟩
    | false => exact ⟨named, hnamed, by simp [NamesEvidence, ← Dict.contains_iff, hkey]⟩

lemma findings_subset_met (result : Json.Fields) : ∀ f ∈ findings result, f ∈ met result := by
  intro f hf
  obtain ⟨name, hname, hf⟩ := List.mem_flatMap.mp hf
  refine List.mem_flatMap.mpr ⟨name, hname, ?_⟩
  unfold groupItems Json.Fields.get Json.Fields.getD at hf
  unfold Json.Fields.getD
  cases hget : Dict.get? result name with
  | none =>
    rw [hget] at hf
    cases hf
  | some v =>
    rw [hget] at hf
    cases v with
    | arr items => exact hf
    | null | bool | int | float | str | obj => cases hf

/-- **What reconciliation makes.** -/
theorem reconcileResult_settles (hst : st.WellFormed)
    (h : reconcileResult env st fallback result = .ok (out, left)) : Settles env st out := by
  unfold reconcileResult at h
  split at h
  · cases h
  · next hgroups =>
    obtain ⟨out', hout, h⟩ := Except.bind_eq_ok.mp h
    cases h
    obtain ⟨hpartitioned, hnamed⟩ := reconcileEntryGrouped_partitioned hst hout
    exact .inr ⟨hpartitioned, hnamed (exists_namesEvidence hgroups hout)⟩
  · next hgroups =>
    rw [iterGroups_eq] at hgroups
    refine .inl ⟨reconcilePatterns_reconciled hst h, reconcilePatterns_noEvidence (fun f hf => ?_) h⟩
    exact not_namesEvidence_of_anyEvidence hgroups f (findings_subset_met result f hf)

/-- Shortening changes no finding but its details. -/
lemma compactLogTriageNarrative_reworded (h : compactLogTriageNarrative result = .ok out) :
    List.Forall₂ Reworded (findings result) (findings out) ∧
      Dict.get? out (py "total_entries") = Dict.get? result (py "total_entries") := by
  obtain ⟨summarized, hsummarized, h⟩ := Except.bind_eq_ok.mp h
  rw [narrativeLimits, List.foldlM_cons] at h
  obtain ⟨mid, hmid, h⟩ := Except.bind_eq_ok.mp h
  rw [List.foldlM_cons] at h
  obtain ⟨last, hlast, h⟩ := Except.bind_eq_ok.mp h
  cases h
  obtain ⟨-, hframe⟩ := foldlM_compactField (by decide) (by decide) hsummarized
  have hkey := (compactGroup_settled (by decide) hmid).1.imp fun _ _ h => h.reworded
  have hsecondary := (compactGroup_settled (by decide) hlast).1.imp fun _ _ h => h.reworded
  dsimp only at hkey hsecondary
  constructor
  · rw [findings_eq, findings_eq]
    refine List.rel_append ?_ ?_
    · rw [← groupItems_of_get? (get?_compactSummaries hsummarized
        (show py "key_finds" ∈ groupNames by decide)),
        groupItems_of_get? (get?_compactGroup hlast (by decide))]
      exact hkey
    · rw [← groupItems_of_get? (get?_compactSummaries hsummarized
        (show py "secondary_finds" ∈ groupNames by decide)),
        ← groupItems_of_get? (get?_compactGroup hmid (by decide))]
      exact hsecondary
  · rw [get?_compactGroup hlast (by decide), get?_compactGroup hmid (by decide),
      hframe _ (by decide)]

/-- What reconciliation makes stays so when its narratives are shortened. -/
lemma Settles.compact (h : Settles env st result) (hout : compactLogTriageNarrative result = .ok out)
    (hgroups : ∀ name ∈ groupNames, ∃ items, Json.Fields.get out name = .arr items) :
    Settles env st out := by
  obtain ⟨hfound, htotal⟩ := compactLogTriageNarrative_reworded hout
  rcases h with ⟨hreconciled, hnone⟩ | ⟨hpartitioned, f, hf, hnames⟩
  · refine .inl ⟨hreconciled.reword hfound hgroups htotal, fun f' hf' => ?_⟩
    obtain ⟨f, hf, hreworded⟩ := hfound.exists_left hf'
    rw [hreworded.namesEvidence_iff]
    exact hnone f hf
  · obtain ⟨f', hf', hreworded⟩ := hfound.exists_right hf
    exact .inr ⟨hpartitioned.reword hfound htotal, f', hf', hreworded.namesEvidence_iff.mpr hnames⟩

end Settles

/-! ## Reconciling it again -/

section Again

variable {result : Json.Fields} {finding : Json} {total : ℤ} {own : Seen}

lemma exists_obj_of_acceptedAlone (h : acceptedAlone env total finding = .ok own) :
    ∃ fields, finding = .obj fields := by
  cases finding with
  | obj fields => exact ⟨fields, rfl⟩
  | null | bool | int | float | str | arr => exact absurd h Except.throw_ne_ok

/-- The patterns of an accepted finding are a list of texts. -/
lemma listsPatterns_of_acceptedAlone (h : acceptedAlone env total finding = .ok own) :
    ListsPatterns finding := by
  obtain ⟨fields, rfl⟩ := exists_obj_of_acceptedAlone h
  obtain ⟨id, ids, physical, -, -, hids, -⟩ := validateFinding_obj.mp h
  exact ⟨ids, texts_of_validatePatternIds hids⟩

/-- An accepted finding that names evidence has some entries. -/
lemma evidenceIds_ne_nil {detailLength : ℕ} (hnames : NamesEvidence finding)
    (hschema : (groupFindSchema detailLength).accepts (fun _ _ => true) finding = true)
    (h : acceptedAlone env total finding = .ok own) : evidenceIds finding ≠ [] := by
  obtain ⟨fields, rfl, hkey⟩ := hnames
  obtain ⟨v, hv⟩ := Option.ne_none_iff_exists'.mp
    fun hnone => (Dict.get?_eq_none_iff _ _).mp hnone hkey
  have hfind := Schema.accepts_all.mp hschema findSchema List.mem_cons_self
  have hevidence := (Schema.accepts_record.mp hfind).1 (py "evidence_entry_ids", .all
    [.type [.array], .items naturalNumber, .minItems 1, .uniqueItems]) (by simp [findProperties]) v hv
  obtain ⟨items, rfl⟩ := eq_arr_of_accepts hevidence
  have hmin := Schema.accepts_all.mp hevidence (.minItems 1) (by simp)
  obtain ⟨-, -, -, -, -, -, hvalid, -⟩ := validateFinding_obj.mp h
  unfold validateEvidence at hvalid
  rw [get_of_get? hv] at hvalid
  cases items with
  | nil => simp [Schema.accepts] at hmin
  | cons item items =>
    dsimp only at hvalid
    obtain ⟨⟨⟩, hlength, -⟩ := Except.bind_eq_ok.mp hvalid
    rw [refuse_eq_ok, bne_eq_false_iff_eq, List.filterMap_length_eq_length] at hlength
    have hitem := hlength item List.mem_cons_self
    have hint : ∃ i, asInt item = some i := by
      cases item with
      | int i => exact ⟨i, rfl⟩
      | null | bool | float | str | arr | obj => cases hitem
    obtain ⟨i, hi⟩ := hint
    rw [evidenceIds, field_obj, get_of_get? hv]
    dsimp only
    rw [List.filterMap_cons_some hi]
    exact List.cons_ne_nil _ _

/-- The groups of a validated result, and their findings. -/
lemma Validated.groups (h : Validated env result) :
    (∀ name ∈ groupNames, ∃ items, Dict.get? result name = some (.arr items)) ∧
      ∀ f ∈ findings result, (∃ fields, f = .obj fields) ∧ ListsPatterns f ∧
        (NamesEvidence f → evidenceIds f ≠ []) := by
  obtain ⟨total, haccepted⟩ := h.accepted
  refine ⟨fun name hname => ?_, fun f hf => ?_⟩
  · obtain ⟨items, -, hget, -⟩ := exists_outputGroup h.schema hname
    exact ⟨items, hget⟩
  · obtain ⟨own, hown⟩ := haccepted.accepted.alone f hf
    obtain ⟨name, hname, hf⟩ := List.mem_flatMap.mp hf
    obtain ⟨items, detailLength, hget, hitems⟩ := exists_outputGroup h.schema hname
    rw [groupItems, get_of_get? hget] at hf
    exact ⟨exists_obj_of_acceptedAlone hown, listsPatterns_of_acceptedAlone hown, fun hnames =>
      evidenceIds_ne_nil hnames (hitems f hf) hown⟩

lemma ReorderedResult.refl
    (h : ∀ name ∈ groupNames, ∃ items, Dict.get? result name = some (.arr items)) :
    ReorderedResult result result where
  groups := by
    intro name hname
    obtain ⟨items, hitems⟩ := h name hname
    exact ⟨items, items, hitems, hitems, List.forall₂_same.mpr fun f _ => .inl rfl⟩
  others := fun _ _ => rfl

/-- **What reconciliation makes is only reordered when it is reconciled again**, if it passes the
checks. -/
theorem Settles.rerun (hst : st.WellFormed) (h : Settles env st result)
    (hvalid : Validated env result) :
    ∃ again, reconcileResult env st false result = .ok (again, again) ∧
      ReorderedResult result again := by
  obtain ⟨hgroups, hfound⟩ := hvalid.groups
  have hmet : met result = findings result := by
    refine List.flatMap_congr fun name hname => ?_
    obtain ⟨items, hitems⟩ := hgroups name hname
    rw [groupItems, get_of_get? hitems, Json.Fields.getD, hitems]
    rfl
  obtain ⟨named, hnamed, hiff⟩ := anyEvidence_objects fun f hf => (hfound f hf).1
  rw [← hmet, ← iterGroups_eq] at hnamed
  unfold reconcileResult
  rw [hnamed]
  rcases h with ⟨hreconciled, hnone⟩ | ⟨hpartitioned, hsome⟩
  · have hfalse : named = false := by
      rw [← Bool.not_eq_true, hiff]
      rintro ⟨f, hf, hnames⟩
      exact hnone f hf hnames
    subst hfalse
    exact ⟨result, hreconciled.rerun hst fun f hf => (hfound f hf).2.1, .refl hgroups⟩
  · obtain rfl : named = true := hiff.mpr hsome
    obtain ⟨again, hagain, hreordered⟩ := hpartitioned.rerun hst hgroups fun f hf =>
      ⟨(hfound f hf).1, (hfound f hf).2.2⟩
    refine ⟨again, ?_, hreordered⟩
    dsimp only
    rw [hagain]
    rfl

end Again

/-! ## The stored result -/

section Stored

variable (env : Env) (st : Statistics) (schemaMessage : Json.Fields → PyStr)

/-- What `_artifact_exists_and_valid` does with a result it has read. The last checks are about the
object that reconciliation has changed in place. -/
def checkStored (result : Json.Fields) : Except PyError Unit := do
  checkOutput env schemaMessage (py "stored Hermes result") result
  let (_, left) ← raised (reconcileResult env st false result)
  checkOutput env schemaMessage (py "reconciled stored Hermes result") left

/-- Whether a stored result is valid; the schema accepts no other values than objects. -/
def storedIsValid (result : Json) : Bool :=
  match result with
  | .obj fields => (checkStored env st schemaMessage fields).toBool
  | _ => false

/-- `_artifact_exists_and_valid`, with the answer of `object_exists` and what reading and decoding
the object gives. -/
def artifactExistsAndValid (objectExists : Except Wire.PyException Bool)
    (load : Except PyError Json) : Except Wire.PyException Bool := do
  if ← objectExists then
    match load with
    | .ok result => return storedIsValid env st schemaMessage result
    | .error _ => return false
  else return false

end Stored

section Outputs

variable {schemaMessage : Json.Fields → PyStr} {answer : ℕ → Except PyStr Json.Fields}
  {remaining attempt : ℕ} {output : Json.Fields}

/-- An attempt that does not give the output of the loop has been rejected. -/
lemma strict_or_rejected
    (h : attempts env st schemaMessage answer remaining attempt = .ok output) :
    (∃ result, strictAttempt env st schemaMessage result = .ok output) ∨
      Rejected env st schemaMessage (answer attempt) := by
  by_cases hrejected : Rejected env st schemaMessage (answer attempt)
  · exact .inr hrejected
  · obtain ⟨result, hanswer, hnot⟩ : ∃ result, answer attempt = .ok result ∧
        ¬ ∃ left, Rejects env st schemaMessage result left := by
      simpa [Rejected] using hrejected
    cases hattempt : strictAttempt env st schemaMessage result with
    | ok candidate =>
      rw [attempts_of_ok hanswer hattempt] at h
      cases h
      exact .inl ⟨result, hattempt⟩
    | error f =>
      obtain ⟨e, left⟩ := f
      have he : isValueError e = false := by
        by_contra hvalue
        exact hnot ⟨left, e, hattempt, Bool.eq_true_of_not_eq_false hvalue⟩
      rw [attempts_of_break hanswer hattempt he] at h
      cases h

/-- The output of a fallback attempt is its candidate. -/
lemma fallbackAttempt_eq_ok {left : Json.Fields}
    (h : fallbackAttempt env st schemaMessage left = .ok output) :
    fallbackCandidate env st schemaMessage left = .ok output := by
  unfold fallbackAttempt at h
  split at h
  · next hcandidate =>
    cases h
    exact hcandidate
  · split at h
    · exact absurd h Except.throw_ne_ok
    · exact absurd h Except.throw_ne_ok

/-- An output of the loop is that of an attempt. -/
lemma exists_attempt (h : attempts env st schemaMessage answer remaining attempt = .ok output) :
    (∃ result, strictAttempt env st schemaMessage result = .ok output) ∨
      ∃ left, fallbackCandidate env st schemaMessage left = .ok output := by
  induction remaining generalizing attempt with
  | zero =>
    rcases strict_or_rejected h with hstrict | hrejected
    · exact .inl hstrict
    · cases hanswer : answer attempt with
      | error message =>
        rw [attempts, hanswer] at h
        exact absurd h Except.throw_ne_ok
      | ok result =>
        obtain ⟨left, hleft⟩ := hrejected result hanswer
        rw [attempts_zero_of_rejects hanswer hleft] at h
        exact .inr ⟨left, fallbackAttempt_eq_ok h⟩
  | succ remaining ih =>
    rcases strict_or_rejected h with hstrict | hrejected
    · exact .inl hstrict
    · rw [attempts_succ_of_rejected hrejected] at h
      exact ih h

/-- **Every output of the loop is what reconciliation makes.** -/
theorem settles_of_processed (hst : st.WellFormed) {hermesMaxOutputAttempts : ℤ}
    (h : processLogTriageMessage env st schemaMessage answer hermesMaxOutputAttempts = .ok output) :
    Settles env st output ∧ Validated env output := by
  rcases exists_attempt h with ⟨result, hresult⟩ | ⟨left, hleft⟩
  · refine ⟨?_, validated_of_strictAttempt hresult⟩
    unfold strictAttempt at hresult
    split at hresult
    · cases hresult
    · next candidate left hcandidate =>
      split at hresult
      · cases hresult
      · cases hresult
        exact reconcileResult_settles hst hcandidate
  · obtain ⟨⟨candidate, left'⟩, hcandidate, hleft⟩ := Except.bind_eq_ok.mp hleft
    obtain ⟨shortened, hshortened, hleft⟩ := Except.bind_eq_ok.mp hleft
    obtain ⟨⟨⟩, hcheck, hleft⟩ := Except.bind_eq_ok.mp hleft
    cases hleft
    have hvalid := checkOutput_eq_ok.mp hcheck
    obtain ⟨total, haccepted⟩ := hvalid.accepted
    have hsettles := reconcileResult_settles hst (raised_eq_ok.mp hcandidate)
    exact ⟨hsettles.compact hshortened haccepted.lists, hvalid⟩

end Outputs

/-! ## The redelivery -/

/-- A delivery that finds a stored result: nothing is raised up to its check, and the evidence has
the statistics it had. -/
structure FindsStored (env : Env) (st : Statistics) (schemaMessage : Json.Fields → PyStr)
    (stored : Json.Fields) (calls : Delivery.Calls) (raw : List UInt8) : Prop where
  connected : calls.getDbConnection = .ok ()
  closed : calls.close = .ok ()
  fetched : ∃ schema logText, calls.fetchEvidence = .ok schema ∧
    Delivery.readEvidence raw = .ok logText ∧ calls.preprocessLog logText = .ok st ∧
    calls.artifactExistsAndValid schema st =
      artifactExistsAndValid env st schemaMessage (.ok true) (.ok (.obj stored))
  doneConnected : calls.doneConnection = .ok ()

/-- A claimed delivery that finds a valid result completes the job, whatever an analysis would have
done. -/
lemma handleDelivery_stored {schemaMessage : Json.Fields → PyStr} {stored : Json.Fields}
    {calls : Delivery.Calls} {raw : List UInt8}
    (h : FindsStored env st schemaMessage stored calls raw)
    (hvalid : artifactExistsAndValid env st schemaMessage (.ok true) (.ok (.obj stored)) = .ok true)
    (lower : PyStr → PyStr) (maxAttempts now leaseSeconds : ℕ) {tok : Jobs.Token} (tokenText : PyStr)
    {message : Json.Fields} {attempt : ℤ}
    (hattempt : (Dict.get? message (py "attempt")).bind Wire.toInt? = some attempt)
    {row claimed : Jobs.JobRow} (hclaim : row.claimUpdate now leaseSeconds tok = some claimed) :
    ∃ completed, Delivery.handleDelivery lower maxAttempts calls raw now leaseSeconds tok tokenText
        message row = some ⟨completed, none⟩ ∧ completed.status = .completed := by
  obtain ⟨schema, logText, hfetched, hread, hpreprocessed, hartifact⟩ := h.fetched
  obtain ⟨v, hv, hint⟩ := Option.bind_eq_some_iff.mp hattempt
  obtain ⟨-, -, htoken, -⟩ := Jobs.JobRow.claimUpdate_eq_some hclaim
  have hjob : Delivery.attemptJob calls raw = .ok (Delivery.jobLeaseError
      (py "job lease was lost during artifact reconciliation")) := by
    unfold Delivery.attemptJob Delivery.reconcile Delivery.tryFinally
    rw [h.connected, h.closed, hfetched, hread]
    simp only [Except.ok_bind, hpreprocessed, hartifact, hvalid, h.doneConnected]
    rfl
  have hmatches : (claimed.bumpAttempt attempt.toNat).tokenMatches (some tok) = true := by
    simpa [Jobs.JobRow.tokenMatches, Jobs.JobRow.bumpAttempt] using htoken
  refine ⟨((claimed.bumpAttempt attempt.toNat).markCompleted (some tok)).1, ?_, ?_⟩
  · unfold Delivery.handleDelivery
    simp only [hclaim, hv, hint, hjob, Option.bind_eq_bind, Option.bind_some, Option.getD_some,
      Jobs.JobRow.markCompleted, hmatches, if_true]
    rfl
  · rw [Jobs.JobRow.markCompleted, if_pos hmatches]

/-- **A result that has been stored stands.** For every log and whatever a model answers, if the loop
ends with an output then reconciling that output again succeeds and changes nothing but the order
in which a finding lists its entries, the check of the stored output accepts it, and a delivery that
finds it completes the job, whatever another analysis would have done. -/
theorem processLogTriageMessage_stands (env : Env) (logText : PyStr) (st : Statistics)
    (hst : preprocessLog env logText = .ok st) (schemaMessage : Json.Fields → PyStr)
    (answer : ℕ → Except PyStr Json.Fields) (hermesMaxOutputAttempts : ℤ) (output : Json.Fields)
    (h : processLogTriageMessage env st schemaMessage answer hermesMaxOutputAttempts =
      .ok output) :
    (∃ again, reconcileResult env st false output = .ok (again, again) ∧
      ReorderedResult output again) ∧
    artifactExistsAndValid env st schemaMessage (.ok true) (.ok (.obj output)) = .ok true ∧
    ∀ (calls : Delivery.Calls) (raw : List UInt8),
      FindsStored env st schemaMessage output calls raw →
      ∀ (lower : PyStr → PyStr) (maxAttempts now leaseSeconds : ℕ) (tok : Jobs.Token)
        (tokenText : PyStr) (message : Json.Fields) (attempt : ℤ),
        (Dict.get? message (py "attempt")).bind Wire.toInt? = some attempt →
      ∀ row claimed : Jobs.JobRow, row.claimUpdate now leaseSeconds tok = some claimed →
      ∃ completed, Delivery.handleDelivery lower maxAttempts calls raw now leaseSeconds tok
        tokenText message row = some ⟨completed, none⟩ ∧ completed.status = .completed := by
  have hwf := preprocessLog_wellFormed hst
  obtain ⟨hsettles, hvalid⟩ := settles_of_processed hwf h
  obtain ⟨again, hagain, hreordered⟩ := hsettles.rerun hwf hvalid
  have hstored : artifactExistsAndValid env st schemaMessage (.ok true) (.ok (.obj output)) =
      .ok true := by
    have hchecked : checkStored env st schemaMessage output = .ok () := by
      rw [checkStored, checkOutput_eq_ok.mpr hvalid, Except.ok_bind, raised_eq_ok.mpr hagain,
        Except.ok_bind]
      exact checkOutput_eq_ok.mpr (hvalid.reorder hreordered)
    rw [artifactExistsAndValid, storedIsValid, hchecked]
    rfl
  refine ⟨⟨again, hagain, hreordered⟩, hstored, ?_⟩
  intro calls raw hfinds lower maxAttempts now leaseSeconds tok tokenText message attempt hattempt
    row claimed hclaim
  exact handleDelivery_stored hfinds hstored lower maxAttempts now leaseSeconds tokenText hattempt
    hclaim

/-- An answer about `sampleLog`. -/
def sampleAnswer : Json.Fields :=
  [(py "total_entries", .int 2), (py "summary_en", literal "The disk is full. A user is fine."),
    (py "summary_zh", literal "磁盘已满。用户正常。"),
    (py "key_finds", .arr [.obj
      [(py "id", literal "f1"), (py "label_en", literal "Disk"), (py "label_zh", literal "磁盘"),
        (py "count", .null), (py "percentage", .null), (py "pattern_ids", unquantifiedIds),
        (py "evidence_entry_ids", .arr [.int 1, .int 0]),
        (py "detail_en", literal "The disk is full."), (py "detail_zh", literal "磁盘已满。")]]),
    (py "secondary_finds", .arr []), (py "severity_signal", literal "low"),
    (py "confidence", .int 1)]

/-- The calls of a delivery that finds `stored`. -/
def storedCalls (st : Statistics) (stored : Json.Fields) : Delivery.Calls :=
  { Delivery.quietCalls with
    preprocessLog := fun _ => .ok st
    artifactExistsAndValid := fun _ statistics =>
      artifactExistsAndValid sampleEnv statistics (fun _ => []) (.ok true) (.ok (.obj stored)) }

/-- The output for that answer stands, and a delivery that finds it completes the job. -/
theorem sampleAnswer_stands : ∃ st output again, preprocessLog sampleEnv sampleLog = .ok st ∧
    processLogTriageMessage sampleEnv st (fun _ => []) (fun _ => .ok sampleAnswer) 1 =
      .ok output ∧
    reconcileResult sampleEnv st false output = .ok (again, again) ∧
    ReorderedResult output again ∧
    artifactExistsAndValid sampleEnv st (fun _ => []) (.ok true) (.ok (.obj output)) =
      .ok true ∧
    ∃ completed, Delivery.handleDelivery id 1 (storedCalls st output)
      (sampleLog.map UInt8.ofNat) 0 60 7 (py "t") Wire.sampleMessage .fresh =
        some ⟨completed, none⟩ ∧ completed.status = .completed := by
  have hrun : ((preprocessLog sampleEnv sampleLog).toOption.any fun st =>
      (processLogTriageMessage sampleEnv st (fun _ => []) (fun _ => .ok sampleAnswer)
        1).toOption.isSome) = true := by
    decide +kernel
  obtain ⟨st, hst, hrun⟩ := (Option.any_eq_true _ _).mp hrun
  obtain ⟨output, houtput⟩ := Option.isSome_iff_exists.mp hrun
  have hst := Except.eq_ok_iff_toOption.mpr hst
  have houtput := Except.eq_ok_iff_toOption.mpr houtput
  obtain ⟨⟨again, hagain, hreordered⟩, hstored, hdelivery⟩ := processLogTriageMessage_stands
    sampleEnv sampleLog st hst (fun _ => []) (fun _ => .ok sampleAnswer) 1 output houtput
  refine ⟨st, output, again, hst, houtput, hagain, hreordered, hstored, ?_⟩
  refine hdelivery (storedCalls st output) (sampleLog.map UInt8.ofNat) ?_ id 1 0 60 7 (py "t")
    Wire.sampleMessage 1 rfl .fresh _ rfl
  exact ⟨rfl, rfl, ⟨_, sampleLog, rfl, rfl, rfl, rfl⟩, rfl⟩

end Triage
