import NocReport.Triage.Compaction
import NocReport.Triage.FamilyComponents
import NocReport.Triage.HiddenNumbers
import NocReport.Triage.OrderIndependence

set_option relaxedAutoImplicit false
set_option autoImplicit false

/-!
# Reconciling by patterns again

A result that is reconciled by patterns names no evidence, and reconciling it again changes
nothing: turn by turn the first loop finds the patterns free and the counts set, no two findings
share a family, and no pattern is left to append. Details do not matter for that, so it is the same
after narratives have been shortened.

## Main definitions

* `Triage.Settled` — a finding the first loop leaves as it is.
* `Triage.NoEvidence` — the fields of a finding that names no evidence.
* `Triage.Reworded` — a finding with other details.

## Main results

* `Triage.Reconciled.rerun` — reconciling by patterns again.
* `Triage.reconcilePatterns_noEvidence` — reconciliation by patterns names no evidence.
* `Triage.Reconciled.reword` — other details make no difference.
-/

namespace Triage

variable {env : Env} {st : Statistics}

/-! ## By patterns -/

section Patterns

/-- The `pattern_ids` of a finding are a list of texts. -/
def ListsPatterns (finding : Json) : Prop := ∃ ids, field finding "pattern_ids" = texts ids

lemma idsOf_texts {fields : Json.Fields} {ids : List PyStr}
    (h : Json.Fields.get fields (py "pattern_ids") = texts ids) : idsOf fields = ids := by
  rw [idsOf, h]
  exact textsOf_map_str ids

/-- Known ids are left as they are. -/
lemma normalizeIds_known (hst : st.WellFormed) {fields : Json.Fields} {ids : List PyStr}
    (h : Json.Fields.get fields (py "pattern_ids") = texts ids)
    (hknown : ∀ id ∈ ids, id = py "unquantified" ∨ id ∈ patternIds st) :
    normalizeIds env st false fields = .ok (fields, ids) := by
  have hunknown : ∀ v ∈ ids.map Json.str, isUnknown st v = .ok false := by
    intro v hv
    obtain ⟨id, hid, rfl⟩ := List.mem_map.mp hv
    unfold isUnknown
    split
    · rfl
    · next hne =>
      have hne : id ≠ py "unquantified" := by simpa [Json.isText] using hne
      have hmem := (contains_patternById hst).mpr ((hknown id hid).resolve_left hne)
      rw [isKnown, hmem]
      rfl
  unfold normalizeIds
  rw [h, texts, Json.iter_or_arr, Except.ok_bind, Except.filterM_eq_nil hunknown, Except.ok_bind]
  rw [textsOf_map_str]
  rfl

/-- Ids that nobody has used before may be used. -/
lemma useIds_of_nodup {used ids : List PyStr} (hids : py "unquantified" ∉ ids)
    (h : (used ++ ids).Nodup) : useIds used ids = .ok (used ++ ids) := by
  induction ids generalizing used with
  | nil =>
    rw [useIds, List.append_nil]
    rfl
  | cons id ids ih =>
    obtain ⟨hne, hids⟩ := not_or.mp (List.mem_cons.not.mp hids)
    have hfree : used.contains id = false := by
      simpa using fun hmem => (List.nodup_append.mp h).2.2 id hmem id List.mem_cons_self rfl
    rw [List.append_cons] at h ⊢
    rw [useIds, if_neg (Ne.symm hne), hfree, if_neg (by simp), ih hids h]

/-- A finding the first loop leaves as it is, if its patterns are free. -/
structure Settled (st : Statistics) (finding : Json) : Prop where
  lists : ListsPatterns finding
  counted : ∃ fields, finding = .obj fields ∧ settle st fields = fields
  known : isQuantified finding = true → ∀ id ∈ patternIdsOf finding, id ∈ patternIds st

lemma assignFinding_settled (hst : st.WellFormed) {s : Assigned} {finding : Json}
    (h : Settled st finding) (hfree : (s.used ++ claimedIds [finding]).Nodup) :
    ∃ s', assignFinding env st false s finding = .ok (finding, true, s') ∧
      s'.used = s.used ++ claimedIds [finding] := by
  obtain ⟨⟨ids, hids⟩, ⟨fields, rfl, hsettled⟩, hknown⟩ := h
  change Json.Fields.get fields (py "pattern_ids") = texts ids at hids
  have hown : idsOf fields = ids := idsOf_texts hids
  unfold assignFinding
  dsimp only
  cases hq : isUnquantified (Json.Fields.get fields (py "pattern_ids")) with
  | true =>
    have hmarker : ids = [py "unquantified"] := by
      have heq := isUnquantified_iff.mp hq
      rw [hids] at heq
      rw [← textsOf_map_str ids, ← textsOf_map_str [py "unquantified"]]
      exact congrArg textsOf (Json.arr.inj heq)
    rw [settle, if_pos hq] at hsettled
    rw [normalizeIds_known hst hids (by simp [hmarker])]
    dsimp only
    rw [hq, if_pos rfl, if_neg (by simp), hsettled, claimedIds_unquantified hq, List.append_nil]
    exact ⟨_, rfl, rfl⟩
  | false =>
    rw [claimedIds_quantified hq, hown] at hfree ⊢
    have hmem : ∀ id ∈ ids, id ∈ patternIds st :=
      hown ▸ hknown (by simpa [isQuantified, field] using hq)
    have hall : ids.all (Dict.contains (patternById st)) = true :=
      List.all_eq_true.mpr fun id hid => (contains_patternById hst).mpr (hmem id hid)
    have hmarker : py "unquantified" ∉ ids := fun hid => unquantified_not_mem hst (hmem _ hid)
    rw [settle, hq, if_neg (by simp), hown] at hsettled
    rw [normalizeIds_known hst hids fun id hid => .inr (hmem id hid)]
    dsimp only
    rw [hq, if_neg (by simp), useIds_of_nodup hmarker hfree]
    dsimp only
    rw [hall, if_pos rfl, hsettled]
    exact ⟨_, rfl, rfl⟩

lemma assignFindings_settled (hst : st.WellFormed) {s : Assigned} {found : List Json}
    (h : ∀ f ∈ found, Settled st f) (hfree : (s.used ++ claimedIds found).Nodup) :
    ∃ s', assignFindings env st false s found = .ok (found, s') ∧
      s'.used = s.used ++ claimedIds found := by
  induction found generalizing s with
  | nil => exact ⟨s, rfl, (List.append_nil _).symm⟩
  | cons finding rest ih =>
    obtain ⟨hfirst, hrest⟩ := List.forall_mem_cons.mp h
    have hsplit : claimedIds (finding :: rest) = claimedIds [finding] ++ claimedIds rest :=
      claimedIds_append [finding] rest
    rw [hsplit, ← List.append_assoc] at hfree
    obtain ⟨s₁, h₁, hused₁⟩ := assignFinding_settled hst hfirst (List.nodup_append.mp hfree).1
    obtain ⟨s₂, h₂, hused₂⟩ := ih hrest (hused₁ ▸ hfree)
    refine ⟨s₂, ?_, ?_⟩
    · rw [assignFindings, h₁]
      dsimp only
      rw [h₂]
      rfl
    · rw [hused₂, hused₁, hsplit, List.append_assoc]

/-- The first loop leaves a group of such findings as it is. -/
lemma assignGroup_settled (env : Env) (hst : st.WellFormed) (s : Assigned) {result : Json.Fields}
    {name : PyStr} {items : List Json} (hitems : Dict.get? result name = some (.arr items))
    (h : ∀ f ∈ items, Settled st f) (hfree : (s.used ++ claimedIds items).Nodup) :
    ∃ s', assignGroup env st false result s name = .ok (result, s') ∧
      s'.used = s.used ++ claimedIds items := by
  obtain ⟨s', hs', hused⟩ := assignFindings_settled hst h hfree
  refine ⟨s', ?_, hused⟩
  rw [assignGroup, Json.Fields.getD, hitems]
  dsimp only [Option.getD_some]
  rw [hs']
  dsimp only
  rw [Dict.set_eq_self hitems]

/-- Where findings share no family, a chain of findings that do leads nowhere. -/
lemma eq_of_connected {w : Work}
    (hapart : ∀ r ∈ w.items, ∀ r' ∈ w.items, r ≠ r' → ¬ ShareFamily st w r r') {r r' : Ref}
    (hr : r ∈ w.items) (h : Connected st w r r') : r = r' := by
  induction h with
  | refl => rfl
  | tail _ hnext ih =>
    obtain ⟨hmem, hshare⟩ := hnext
    subst ih
    by_contra hne
    exact hapart r hr _ hmem hne hshare

/-- Findings that share no family are not merged. -/
lemma mergeFamilies_of_apart {w : Work} (hrefs : w.doc.refs.Nodup)
    (hapart : ∀ r ∈ w.items, ∀ r' ∈ w.items, r ≠ r' → ¬ ShareFamily st w r r') :
    mergeFamilies env st w = w := by
  have hlists : List.Forall₂ (ListsFamilies st w) w.items _ := forall₂_familiesOf env
  have hsingle : ((components env st w).any fun c => decide (1 < c.length)) = false := by
    rw [List.any_eq_false]
    intro c hc hlong
    have hperm : (components env st w).flatten.Perm w.items :=
      flatten_componentsOf_perm hlists.length_eq.symm
    have hnodup : c.Nodup :=
      (hperm.nodup_iff.mpr (hrefs.filter _)).sublist (List.sublist_flatten_of_mem hc)
    have hitem : ∀ r ∈ c, r ∈ w.items := fun r hr =>
      hperm.mem_iff.mp (List.mem_flatten_of_mem hc hr)
    -- two findings of one component are connected, hence the same
    obtain ⟨r, r', rest, rfl⟩ : ∃ r r' rest, c = r :: r' :: rest := by
      cases c with
      | nil => simp at hlong
      | cons r tail =>
        cases tail with
        | nil => simp at hlong
        | cons r' rest => exact ⟨r, r', rest, rfl⟩
    have hr : r ∈ w.items := hitem r List.mem_cons_self
    have hchain := (exists_component_iff hlists.length_eq.symm).mp
      ⟨_, hc, List.mem_cons_self, List.mem_cons_of_mem r List.mem_cons_self⟩
    have heq := eq_of_connected hapart hr ((chain_iff_connected hlists hr).mp hchain)
    exact (List.nodup_cons.mp hnodup).1 (heq ▸ List.mem_cons_self)
  unfold mergeFamilies
  dsimp only
  rw [hsingle, if_neg (by simp)]

/-- Counts that are there already are not changed. -/
lemma recount_settled {w : Work} (h : ∀ r ∈ w.items, settle st (w.heap r) = w.heap r) :
    recount st w = w := by
  have hfixed : ∀ r ∈ w.items, recountFinding st w r = w := by
    intro r hr
    have hq : isUnquantified (Json.Fields.get (w.heap r) (py "pattern_ids")) = false := by
      simpa [Work.quantified] using (Work.mem_items.mp hr).2
    have hsettled := h r hr
    rw [settle, hq, if_neg (by simp)] at hsettled
    rw [recountFinding, Work.ids, hsettled, Work.write, Function.update_eq_self]
  unfold recount
  generalize w.items = refs at hfixed
  induction refs with
  | nil => rfl
  | cons r refs ih =>
    rw [List.foldl_cons, hfixed r List.mem_cons_self]
    exact ih fun r' hr' => hfixed r' (List.mem_cons_of_mem _ hr')

/-- Where every pattern is used, none is appended. -/
lemma appendOmitted_of_used {w : Work} (h : ∀ p ∈ namedPatterns st, p.id ∈ usedIds w) :
    appendOmitted env st w = w := by
  have hnone : (namedPatterns st).filter (fun p => !(usedIds w).contains p.id) = [] := by
    rw [List.filter_eq_nil_iff]
    intro p hp
    simpa using h p hp
  rw [appendOmitted, omittedByFamily, hnone]
  rfl

/-- The findings of a reconciled result are settled. -/
lemma Reconciled.settled_of_lists {result : Json.Fields} (h : Reconciled st result)
    (hlists : ∀ f ∈ findings result, ListsPatterns f) : ∀ f ∈ findings result, Settled st f :=
  fun f hf => ⟨hlists f hf, h.settled f hf, h.known f hf⟩

/-- The findings of a reconciled result share no family. -/
lemma Reconciled.apart_start {result : Json.Fields} (h : Reconciled st result) :
    ∀ r ∈ (Work.start result).items, ∀ r' ∈ (Work.start result).items, r ≠ r' →
      ¬ ShareFamily st (Work.start result) r r' := by
  have hstart := start_refs fun f hf => (h.settled f hf).imp fun _ h => h.1
  have hpair := h.apart
  rw [← hstart, List.filter_map, List.pairwise_map] at hpair
  have : Std.Symm fun r r' : Ref => ¬ ShareFamily st (Work.start result) r r' := by
    refine ⟨fun r r' hshare => ?_⟩
    rintro ⟨id', hid', id, hid, family, hfamily', hfamily⟩
    exact hshare ⟨id, hid, id', hid', family, hfamily, hfamily'⟩
  have hitems : (Work.start result).items.Pairwise
      fun r r' => ¬ ShareFamily st (Work.start result) r r' := by
    refine List.Pairwise.imp ?_ hpair
    rintro r r' hclash ⟨id, hid, id', hid', family, hfamily, hfamily'⟩
    exact hclash id hid id' hid' (.inr ⟨family, hfamily, hfamily'⟩)
  exact fun r hr r' hr' hne => hitems.forall hr hr' hne

/-- **A result that is reconciled by patterns again stays as it is.** -/
theorem Reconciled.rerun (hst : st.WellFormed) {result : Json.Fields} (h : Reconciled st result)
    (hlists : ∀ f ∈ findings result, ListsPatterns f) :
    reconcilePatterns env st false result = .ok (result, result) := by
  obtain ⟨key, hkey⟩ := h.groups (py "key_finds") (by decide)
  obtain ⟨secondary, hsecondary⟩ := h.groups (py "secondary_finds") (by decide)
  have hkeyGet := get?_of_get hkey (by simp)
  have hsecondaryGet := get?_of_get hsecondary (by simp)
  have hfindings : findings result = key ++ secondary := by
    rw [findings_eq, groupItems, groupItems, hkey, hsecondary]
  have hsettled := h.settled_of_lists hlists
  have hnodup := h.nodup_claimedIds
  rw [hfindings, claimedIds_append] at hnodup
  -- the first loop
  obtain ⟨s₁, h₁, hused₁⟩ := assignGroup_settled env hst ⟨[], false⟩ hkeyGet
    (fun f hf => hsettled f (hfindings ▸ List.mem_append_left _ hf))
    (by simpa using (List.nodup_append.mp hnodup).1)
  rw [List.nil_append] at hused₁
  obtain ⟨s₂, h₂, -⟩ := assignGroup_settled env hst s₁ hsecondaryGet
    (fun f hf => hsettled f (hfindings ▸ List.mem_append_right _ hf)) (hused₁ ▸ hnodup)
  have hsound := start_sound hst h₁ h₂
  have hstart := start_refs fun f hf => (h.settled f hf).imp fun _ h => h.1
  have hmem : ∀ r ∈ (Work.start result).items,
      Json.obj ((Work.start result).heap r) ∈ findings result := by
    intro r hr
    rw [← hstart]
    exact List.mem_map.mpr ⟨r, (Work.mem_items.mp hr).1, rfl⟩
  have hiterable : (Work.start result).items.all (Work.start result).iterable = true := by
    rw [List.all_eq_true]
    intro r hr
    obtain ⟨ids, hids⟩ := hlists _ (hmem r hr)
    rw [Work.iterable, get?_of_get hids (by simp [texts])]
    rfl
  -- the later steps
  have hfinish : finishPatterns env st false (Work.start result) = Work.start result := by
    have hused : ∀ p ∈ namedPatterns st, p.id ∈ usedIds (Work.start result) := by
      intro p hp
      rw [← claimedIds_refs, hstart]
      exact h.complete p hp
    have hcounted : recount st (Work.start result) = Work.start result := by
      refine recount_settled fun r hr => ?_
      obtain ⟨fields, heq, hfields⟩ := h.settled _ (hmem r hr)
      cases heq
      exact hfields
    simp only [finishPatterns, mergeFamilies_of_apart hsound.refs h.apart_start,
      Bool.false_eq_true, if_false, hcounted, appendOmitted_of_used hused]
    have htotal : Dict.set (Work.start result).doc.fields (py "total_entries")
        (.int st.totalEntries) = (Work.start result).doc.fields := Dict.set_eq_self h.total
    rw [htotal]
  have hread : (Work.start result).doc.read (Work.start result).heap = result := by
    have hgroups := hstart
    rw [hfindings, Doc.refs, List.map_append] at hgroups
    have hlength : ((Work.start result).doc.keyFinds.map fun r =>
        Json.obj ((Work.start result).heap r)).length = key.length := by
      simp [Work.start, groupItems, hkey]
    obtain ⟨hkeyMap, hsecondaryMap⟩ := List.append_inj hgroups hlength
    rw [Doc.read]
    dsimp only
    rw [hkeyMap, hsecondaryMap, show (Work.start result).doc.fields = result from rfl,
      Dict.set_eq_self hkeyGet, Dict.set_eq_self hsecondaryGet]
  rw [reconcilePatterns, h₁, Except.ok_bind]
  dsimp only
  rw [h₂, Except.ok_bind]
  dsimp only
  rw [hiterable, if_pos rfl, hfinish, Work.leftBehind, hread]
  exact congrArg _ (congrArg _ hread)

end Patterns

/-! ## Without evidence -/

section Evidence

variable {fallback : Bool} {finding : Json} {fields : Json.Fields}

/-- The fields of a finding that names no evidence. -/
def NoEvidence (fields : Json.Fields) : Prop := py "evidence_entry_ids" ∉ Dict.keys fields

lemma not_namesEvidence_obj : ¬ NamesEvidence (.obj fields) ↔ NoEvidence fields := by
  refine not_congr ⟨?_, fun hkey => ⟨fields, rfl, hkey⟩⟩
  rintro ⟨_, heq, hkey⟩
  cases heq
  exact hkey

lemma NoEvidence.set {key : PyStr} (h : NoEvidence fields) (hne : py "evidence_entry_ids" ≠ key)
    (v : Json) : NoEvidence (Dict.set fields key v) := by
  rw [NoEvidence, Dict.mem_keys_set, not_or]
  exact ⟨hne, h⟩

lemma NoEvidence.setCount (h : NoEvidence fields) (st : Statistics) (count : ℕ) :
    NoEvidence (setCount st fields count) :=
  (h.set (by decide) _).set (by decide) _

lemma NoEvidence.clearCount (h : NoEvidence fields) : NoEvidence (clearCount fields) :=
  (h.set (by decide) _).set (by decide) _

lemma normalizeIds_noEvidence {ids : List PyStr} {out : Json.Fields} (hfields : NoEvidence fields)
    (h : normalizeIds env st fallback fields = .ok (out, ids)) : NoEvidence out := by
  obtain ⟨items, -, h⟩ := Except.bind_eq_ok.mp h
  obtain ⟨unknown, -, h⟩ := Except.bind_eq_ok.mp h
  split at h
  · cases h
    exact hfields
  · split at h
    · obtain ⟨known, -, h⟩ := Except.bind_eq_ok.mp h
      split at h
      · cases h
        exact (hfields.set (by decide) _).clearCount
      · cases h
        exact hfields.set (by decide) _
    · exact absurd h Except.throw_ne_ok

lemma assignFinding_noEvidence {s s' : Assigned} {out : Json} {kept : Bool}
    (hfinding : ¬ NamesEvidence finding)
    (h : assignFinding env st fallback s finding = .ok (out, kept, s')) : ¬ NamesEvidence out := by
  cases finding with
  | obj fields =>
    rw [not_namesEvidence_obj] at hfinding
    unfold assignFinding at h
    dsimp only at h
    split at h
    · cases h
    · next normal ids hnormal =>
      have hnone := normalizeIds_noEvidence hfinding hnormal
      split at h
      · split at h
        · cases h
          exact not_namesEvidence_obj.mpr hnone
        · cases h
          exact not_namesEvidence_obj.mpr hnone.clearCount
      · split at h
        · cases h
        · split at h
          · cases h
            exact not_namesEvidence_obj.mpr (hnone.setCount st _)
          · cases h
  | null | bool | int | float | str | arr => cases h

lemma assignFindings_noEvidence {s s' : Assigned} {found out : List Json}
    (hfound : ∀ f ∈ found, ¬ NamesEvidence f)
    (h : assignFindings env st fallback s found = .ok (out, s')) :
    ∀ f ∈ out, ¬ NamesEvidence f := by
  induction found generalizing s out with
  | nil =>
    cases h
    exact hfound
  | cons finding rest ih =>
    obtain ⟨hfirst, hrest⟩ := List.forall_mem_cons.mp hfound
    rw [assignFindings] at h
    split at h
    · cases h
    · next finding' kept after hfinding =>
      split at h
      · cases h
      · next rest' after' hloop =>
        cases h
        cases kept with
        | true =>
          rw [if_pos rfl, List.forall_mem_cons]
          exact ⟨assignFinding_noEvidence hfirst hfinding, ih hrest hloop⟩
        | false => exact ih hrest hloop

lemma assignGroup_noEvidence {s s' : Assigned} {result out : Json.Fields} {name : PyStr}
    (hgroup : ∀ f ∈ groupItems result name, ¬ NamesEvidence f)
    (h : assignGroup env st fallback result s name = .ok (out, s')) :
    ∀ f ∈ groupItems out name, ¬ NamesEvidence f := by
  unfold assignGroup at h
  split at h
  · next items hitems =>
    rw [groupItems_of_getD hitems] at hgroup
    split at h
    · cases h
    · next hloop =>
      cases h
      rw [groupItems_set_self]
      exact assignFindings_noEvidence hgroup hloop
  · split at h
    · cases h
    · cases h
      rw [groupItems_set_self]
      simp
    · cases h

/-- No finding of the steps names evidence. -/
lemma Edits.noEvidence {w w' : Work} (h : Edits st w w') (hw : ∀ r, NoEvidence (w.heap r)) :
    ∀ r, NoEvidence (w'.heap r) := by
  have hwrite : ∀ {w : Work}, (∀ r, NoEvidence (w.heap r)) → ∀ {f : Json.Fields}, NoEvidence f →
      ∀ r r', NoEvidence ((w.write r f).heap r') := by
    intro w hw f hf r r'
    by_cases hr : r' = r
    · subst hr
      simpa using hf
    · simpa [hr] using hw r'
  induction h with
  | refl => exact hw
  | trans _ _ ih ih' => exact ih' (ih hw)
  | setIds w r ids => exact hwrite hw ((hw r).set (by decide) _) r
  | setCount w r n => exact hwrite hw ((hw r).setCount st n) r
  | rebind => exact hw
  | regroup => exact hw
  | allocate w kind family item ids count detailEn detailZh =>
    refine hwrite hw ?_ w.next
    simp [NoEvidence, familyFinding, Dict.keys]

/-- **Reconciliation by patterns names no evidence.** -/
theorem reconcilePatterns_noEvidence {result out left : Json.Fields}
    (hfindings : ∀ f ∈ findings result, ¬ NamesEvidence f)
    (h : reconcilePatterns env st fallback result = .ok (out, left)) :
    ∀ f ∈ findings out, ¬ NamesEvidence f := by
  rw [findings_eq, List.forall_mem_append] at hfindings
  obtain ⟨⟨result₁, s₁⟩, h₁, h⟩ := Except.bind_eq_ok.mp h
  obtain ⟨⟨result₂, s₂⟩, h₂, h⟩ := Except.bind_eq_ok.mp h
  have hkey := assignGroup_noEvidence hfindings.1 h₁
  rw [← groupItems_of_get? (get?_assignGroup h₁ (py "secondary_finds") (by decide))] at hfindings
  have hsecondary := assignGroup_noEvidence hfindings.2 h₂
  rw [← groupItems_of_get? (get?_assignGroup h₂ (py "key_finds") (by decide))] at hkey
  have hstart : ∀ r, NoEvidence ((Work.start result₂).heap r) := by
    intro r
    have hitems := List.forall_mem_append.mpr ⟨hkey, hsecondary⟩
    simp only [Work.start]
    generalize groupItems result₂ (py "key_finds") ++
      groupItems result₂ (py "secondary_finds") = items at hitems
    split
    · next fields hfields =>
      cases hget : items[r]? with
      | none =>
        rw [hget] at hfields
        cases hfields
      | some f =>
        rw [hget, Option.getD_some] at hfields
        exact not_namesEvidence_obj.mp (hfields ▸ hitems f (List.mem_of_getElem? hget))
    · exact List.not_mem_nil
  dsimp only at h
  split at h
  · cases h
    rw [findings_read]
    intro f hf
    obtain ⟨r, -, rfl⟩ := List.mem_map.mp hf
    exact not_namesEvidence_obj.mpr ((finishBody_edits env st _ fallback).noEvidence hstart r)
  · exact absurd h Except.throw_ne_ok

end Evidence

/-! ## Other details -/

section Details

variable {finding finding' : Json} {fields fields' : Json.Fields} {found found' : List Json}

/-- The fields of a finding that are shortened. -/
def detailKeys : List PyStr := ["detail_zh", "detail_en"].map py

/-- All fields but the details are the same. -/
def SameButDetails (fields fields' : Json.Fields) : Prop :=
  ∀ key ∉ detailKeys, Dict.get? fields' key = Dict.get? fields key

/-- A finding with other details. -/
def Reworded (finding finding' : Json) : Prop :=
  ∃ fields fields', finding = .obj fields ∧ finding' = .obj fields' ∧ SameButDetails fields fields'

lemma ShortenedFinding.reworded {maxChars maxSentences : ℕ}
    (h : ShortenedFinding maxChars maxSentences finding finding') : Reworded finding finding' := by
  obtain ⟨fields, fields', hfields, hfields', -, hothers⟩ := h
  exact ⟨fields, fields', hfields, hfields', hothers⟩

lemma SameButDetails.setAll (h : SameButDetails fields fields') {items : List (PyStr × Json)}
    (hkeys : (items.map (·.1)).Nodup) (hdetails : ∀ p ∈ items, p.1 ∉ detailKeys)
    (hfields : Dict.setAll fields items = fields) : Dict.setAll fields' items = fields' := by
  rw [Dict.setAll_eq_self_iff hkeys] at hfields ⊢
  intro p hp
  rw [h p.1 (hdetails p hp)]
  exact hfields p hp

lemma SameButDetails.settle (h : SameButDetails fields fields')
    (hfields : settle st fields = fields) : settle st fields' = fields' := by
  have hids : Json.Fields.get fields' (py "pattern_ids") =
      Json.Fields.get fields (py "pattern_ids") := get_congr (h _ (by decide))
  have hcounted : ∀ count percentage : Json,
      Dict.setAll fields [(py "count", count), (py "percentage", percentage)] = fields →
        Dict.setAll fields' [(py "count", count), (py "percentage", percentage)] = fields' :=
    fun count percentage => h.setAll (by simp) (by simp [detailKeys])
  unfold Triage.settle at hfields ⊢
  rw [hids, idsOf_congr hids]
  split
  · next hmarker =>
    rw [if_pos hmarker] at hfields
    exact hcounted _ _ hfields
  · next hmarker =>
    rw [if_neg hmarker] at hfields
    exact hcounted _ _ hfields

lemma Reworded.field (h : Reworded finding finding') {key : String} (hkey : py key ∉ detailKeys) :
    field finding' key = field finding key := by
  obtain ⟨fields, fields', rfl, rfl, hsame⟩ := h
  exact get_congr (hsame _ hkey)

lemma Reworded.isQuantified_eq (h : Reworded finding finding') :
    isQuantified finding' = isQuantified finding := by
  rw [isQuantified, isQuantified, h.field (by decide)]

lemma Reworded.patternIdsOf_eq (h : Reworded finding finding') :
    patternIdsOf finding' = patternIdsOf finding := by
  have hids : Triage.field finding' "pattern_ids" = Triage.field finding "pattern_ids" :=
    h.field (by decide)
  obtain ⟨fields, fields', rfl, rfl, hsame⟩ := h
  exact idsOf_congr hids

lemma Reworded.namesEvidence_iff (h : Reworded finding finding') :
    NamesEvidence finding' ↔ NamesEvidence finding := by
  obtain ⟨fields, fields', rfl, rfl, hsame⟩ := h
  rw [← not_iff_not, not_namesEvidence_obj, not_namesEvidence_obj, NoEvidence, NoEvidence,
    ← Dict.get?_eq_none_iff, ← Dict.get?_eq_none_iff, hsame _ (by decide)]

/-- The quantified findings have the patterns they had. -/
lemma map_patternIdsOf_reworded (h : List.Forall₂ Reworded found found') :
    (found'.filter isQuantified).map patternIdsOf =
      (found.filter isQuantified).map patternIdsOf := by
  induction h with
  | nil => rfl
  | @cons finding finding' found found' hfinding _ ih =>
    rw [List.filter_cons, List.filter_cons, hfinding.isQuantified_eq]
    split
    · rw [List.map_cons, List.map_cons, hfinding.patternIdsOf_eq, ih]
    · exact ih

/-- A reconciled result with other details is reconciled. -/
lemma Reconciled.reword {result result' : Json.Fields} (h : Reconciled st result)
    (hfound : List.Forall₂ Reworded (findings result) (findings result'))
    (hgroups : ∀ name ∈ groupNames, ∃ items, Json.Fields.get result' name = .arr items)
    (htotal : Dict.get? result' (py "total_entries") = Dict.get? result (py "total_entries")) :
    Reconciled st result' := by
  have hids := map_patternIdsOf_reworded hfound
  have hclaimed : claimedIds (findings result') = claimedIds (findings result) := by
    rw [claimedIds, claimedIds, List.flatMap_def, List.flatMap_def, hids]
  refine ⟨hgroups, fun f' hf' => ?_, fun f' hf' hq => ?_, fun f' hf' hq => ?_, ?_, ?_, ?_⟩
  · obtain ⟨f, hf, fields, fields', rfl, rfl, hsame⟩ := hfound.exists_left hf'
    obtain ⟨_, heq, hsettled⟩ := h.settled _ hf
    cases heq
    exact ⟨fields', rfl, hsame.settle hsettled⟩
  · obtain ⟨f, hf, hreworded⟩ := hfound.exists_left hf'
    rw [hreworded.patternIdsOf_eq]
    exact h.known f hf (hreworded.isQuantified_eq ▸ hq)
  · obtain ⟨f, hf, hreworded⟩ := hfound.exists_left hf'
    rw [hreworded.patternIdsOf_eq]
    exact h.own f hf (hreworded.isQuantified_eq ▸ hq)
  · have hapart := h.apart
    rw [← List.pairwise_map (f := patternIdsOf)
      (R := fun ids ids' => ∀ id ∈ ids, ∀ id' ∈ ids', ¬ Clash st id id')] at hapart ⊢
    rw [hids]
    exact hapart
  · rw [hclaimed]
    exact h.complete
  · rw [htotal]
    exact h.total

end Details

end Triage
