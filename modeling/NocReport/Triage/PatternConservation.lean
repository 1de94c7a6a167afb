import NocReport.Triage.PatternMerging

set_option relaxedAutoImplicit false
set_option autoImplicit false

/-!
# Reconciliation by patterns conserves the counts

When no finding names evidence entries, every pattern of the manifest but `other` ends up in
exactly one finding, and every finding counts its patterns: the counts are set after the merging,
and whatever the mergings have lost or nobody has claimed is appended.

## Main definitions

* `Triage.settle` — the finding with the count of its patterns.
* `Triage.Counted` — sound findings with their counts.
* `Triage.Reconciled` — what a reconciled result looks like.

## Main results

* `Triage.start_sound` — the first loop leaves sound findings.
* `Triage.recount_counted`, `Triage.repairUnquantified_counted`, `Triage.appendOmitted_counted` —
  the later steps.
* `Triage.reconcilePatterns_reconciled` — the whole.
* `Triage.reconcileResult_conserves_patterns` — the conservation of patterns and counts.
-/

namespace Triage

variable {env : Env} {st : Statistics} {fallback : Bool}

/-! ## Settled findings -/

/-- The finding with the count of its patterns, or without a count. -/
def settle (st : Statistics) (f : Json.Fields) : Json.Fields :=
  if isUnquantified (Json.Fields.get f (py "pattern_ids")) then clearCount f
  else setCount st f (countOf st (idsOf f))

/-- Sound findings with the counts of their patterns. -/
structure Counted (st : Statistics) (w : Work) : Prop extends Sound (Clash st) st w where
  settled : ∀ r ∈ w.doc.refs, settle st (w.heap r) = w.heap r

lemma settle_setCount (st : Statistics) {f : Json.Fields}
    (h : isUnquantified (Json.Fields.get f (py "pattern_ids")) = false) :
    settle st (setCount st f (countOf st (idsOf f))) = setCount st f (countOf st (idsOf f)) := by
  have hq : isUnquantified
      (Json.Fields.get (setCount st f (countOf st (idsOf f))) (py "pattern_ids")) = false := by
    rwa [get_setCount_pattern_ids]
  rw [settle, hq, if_neg (by simp), idsOf_setCount, setCount_setCount]

/-- The count of a settled finding. -/
lemma count_of_settled {f : Json.Fields} (h : settle st f = f)
    (hq : isUnquantified (Json.Fields.get f (py "pattern_ids")) = false) :
    Json.Fields.get f (py "count") = .int (countOf st (idsOf f)) := by
  rw [settle, hq, if_neg (by simp)] at h
  rw [← h, idsOf_setCount]
  simp [setCount]

/-- A finding that is replaced or added. -/
lemma Counted.insert {w w' : Work} {r : Ref} (hw : Counted st w) (hrefs : w'.doc.refs.Nodup)
    (hsub : ∀ x ∈ w'.doc.refs, x = r ∨ x ∈ w.doc.refs) (hlt : ∀ x ∈ w'.doc.refs, x < w'.next)
    (hheap : ∀ x, x ≠ r → w'.heap x = w.heap x) (hq : w'.quantified r = true)
    (hsettled : settle st (w'.heap r) = w'.heap r)
    (hknown : ∀ id ∈ w'.ids r, id ∈ patternIds st) (hown : (w'.ids r).Nodup)
    (hapart : ∀ x ∈ w.items, x ≠ r → ∀ id ∈ w'.ids r, ∀ id' ∈ w.ids x, ¬ Clash st id id') :
    Counted st w' := by
  have hitems : ∀ x ∈ w'.items, x ≠ r → x ∈ w.items := by
    intro x hx hne
    obtain ⟨hmem, hqx⟩ := Work.mem_items.mp hx
    exact Work.mem_items.mpr
      ⟨(hsub x hmem).resolve_left hne, Work.quantified_congr (hheap x hne) ▸ hqx⟩
  refine ⟨⟨hrefs, hlt, ?_, ?_, ?_, ?_⟩, ?_⟩
  · intro x hx hqx
    have hne : x ≠ r := by
      rintro rfl
      rw [hq] at hqx
      cases hqx
    rw [hheap x hne]
    exact hw.cleared x ((hsub x hx).resolve_left hne) (Work.quantified_congr (hheap x hne) ▸ hqx)
  · intro x hx
    by_cases hne : x = r
    · rw [hne]
      exact hknown
    · rw [Work.ids_congr (hheap x hne)]
      exact hw.known x (hitems x hx hne)
  · intro x hx
    by_cases hne : x = r
    · rw [hne]
      exact hown
    · rw [Work.ids_congr (hheap x hne)]
      exact hw.own x (hitems x hx hne)
  · intro x hx y hy hxy id hid id' hid' hclash
    by_cases hxr : x = r
    · subst hxr
      have hyr : y ≠ x := Ne.symm hxy
      rw [Work.ids_congr (hheap y hyr)] at hid'
      exact hapart y (hitems y hy hyr) hyr id hid id' hid' hclash
    · rw [Work.ids_congr (hheap x hxr)] at hid
      by_cases hyr : y = r
      · subst hyr
        exact hapart x (hitems x hx hxr) hxr id' hid' id hid hclash.symm
      · rw [Work.ids_congr (hheap y hyr)] at hid'
        exact hw.apart x (hitems x hx hxr) y (hitems y hy hyr) hxy id hid id' hid' hclash
  · intro x hx
    by_cases hne : x = r
    · rw [hne]
      exact hsettled
    · rw [hheap x hne]
      exact hw.settled x ((hsub x hx).resolve_left hne)

/-- Findings may be left out. -/
lemma Counted.subset {w w' : Work} (hw : Counted st w) (hheap : w'.heap = w.heap)
    (hnext : w'.next = w.next) (hrefs : w'.doc.refs.Nodup)
    (hsub : ∀ r ∈ w'.doc.refs, r ∈ w.doc.refs) : Counted st w' := by
  have hsame : ∀ r, w'.heap r = w.heap r := fun r => by rw [hheap]
  have hitems : ∀ r ∈ w'.items, r ∈ w.items := by
    intro r hr
    obtain ⟨hmem, hq⟩ := Work.mem_items.mp hr
    exact Work.mem_items.mpr ⟨hsub r hmem, Work.quantified_congr (hsame r) ▸ hq⟩
  refine ⟨⟨hrefs, ?_, ?_, ?_, ?_, ?_⟩, ?_⟩
  · intro r hr
    rw [hnext]
    exact hw.lt r (hsub r hr)
  · intro r hr hq
    rw [hsame r]
    exact hw.cleared r (hsub r hr) (Work.quantified_congr (hsame r) ▸ hq)
  · intro r hr
    rw [Work.ids_congr (hsame r)]
    exact hw.known r (hitems r hr)
  · intro r hr
    rw [Work.ids_congr (hsame r)]
    exact hw.own r (hitems r hr)
  · intro r hr r' hr'
    rw [Work.ids_congr (hsame r), Work.ids_congr (hsame r')]
    exact hw.apart r (hitems r hr) r' (hitems r' hr')
  · intro r hr
    rw [hsame r]
    exact hw.settled r (hsub r hr)

/-! ## The first loop -/

/-- The ids of the findings a document refers to. -/
lemma claimedIds_refs (w : Work) :
    claimedIds (w.doc.refs.map fun r => .obj (w.heap r)) = usedIds w := by
  rw [claimedIds, usedIds, Work.items, List.filter_map, List.flatMap_map]
  rfl

lemma refs_start (result : Json.Fields) :
    (Work.start result).doc.refs = List.range (Work.start result).next := by
  have h := @List.range'_append_1 0 (groupItems result (py "key_finds")).length
    (groupItems result (py "secondary_finds")).length
  rw [Nat.zero_add, ← List.range_eq_range', ← List.range_eq_range'] at h
  exact h

lemma heap_start (result : Json.Fields) (i : ℕ) :
    (Work.start result).heap i = match ((groupItems result (py "key_finds") ++
      groupItems result (py "secondary_finds"))[i]?).getD .null with
      | .obj fields => fields
      | _ => [] := rfl

/-- The findings a document refers to at the beginning. -/
lemma start_refs {result : Json.Fields} (hobj : ∀ f ∈ findings result, ∃ fields, f = .obj fields) :
    (Work.start result).doc.refs.map (fun r => Json.obj ((Work.start result).heap r)) =
      findings result := by
  rw [findings_eq] at hobj ⊢
  have hnext : (Work.start result).next = (groupItems result (py "key_finds") ++
      groupItems result (py "secondary_finds")).length := List.length_append.symm
  rw [refs_start, hnext]
  generalize hkey : groupItems result (py "key_finds") = key at hobj ⊢
  generalize hsecondary : groupItems result (py "secondary_finds") = secondary at hobj ⊢
  refine List.ext_getElem? fun i => ?_
  rw [List.getElem?_map]
  by_cases hi : i < (key ++ secondary).length
  · obtain ⟨fields, hf⟩ := hobj _ (List.getElem_mem hi)
    have hheap : (Work.start result).heap i = fields := by
      rw [heap_start, hkey, hsecondary, List.getElem?_eq_getElem hi, hf]
      rfl
    rw [List.getElem?_range hi, Option.map_some, hheap, List.getElem?_eq_getElem hi, hf]
  · rw [List.getElem?_eq_none (by simpa using hi), List.getElem?_eq_none (by simpa using hi)]
    rfl

/-- The first loop leaves sound findings. -/
lemma start_sound (hst : st.WellFormed) {result result₁ result₂ : Json.Fields} {s₁ s₂ : Assigned}
    (h₁ : assignGroup env st fallback result ⟨[], false⟩ (py "key_finds") = .ok (result₁, s₁))
    (h₂ : assignGroup env st fallback result₁ s₁ (py "secondary_finds") = .ok (result₂, s₂)) :
    Sound (· = ·) st (Work.start result₂) := by
  obtain ⟨-, hcleared₁, hnodup₁, hused₁, hmem₁, -⟩ := assignGroup_spec hst List.nodup_nil h₁
  obtain ⟨-, hcleared₂, hnodup₂, hused₂, hmem₂, hframe⟩ := assignGroup_spec hst hnodup₁ h₂
  have hkey := groupItems_congr (hframe (py "key_finds") (by decide))
  have hcleared : ∀ f ∈ findings result₂, Cleared f := by
    intro f hf
    rw [findings_eq, hkey] at hf
    exact (List.mem_append.mp hf).elim (hcleared₁ f) (hcleared₂ f)
  have hstart := start_refs fun f hf => (hcleared f hf).imp fun _ h => h.1
  generalize hw : Work.start result₂ = w at hstart ⊢
  have hused : usedIds w = claimedIds (findings result₂) := by
    rw [← hstart, claimedIds_refs]
  have hall : claimedIds (findings result₂) = s₂.used := by
    rw [findings_eq, hkey, claimedIds_append, hused₂, hused₁, List.nil_append]
  have hrefs : w.doc.refs = List.range w.next := hw ▸ refs_start result₂
  have hrefsNodup : w.doc.refs.Nodup := hrefs ▸ List.nodup_range
  have hmemUsed : ∀ r ∈ w.items, ∀ id ∈ w.ids r, id ∈ usedIds w := fun r hr id hid =>
    List.mem_flatMap.mpr ⟨r, hr, hid⟩
  obtain ⟨hown, hpair⟩ := List.nodup_flatMap.mp (show (usedIds w).Nodup by rwa [hused, hall])
  have : Std.Symm fun r r' : Ref => List.Disjoint (w.ids r) (w.ids r') :=
    ⟨fun _ _ h => h.symm⟩
  refine { refs := hrefsNodup, lt := ?_, cleared := ?_, known := ?_, own := hown, apart := ?_ }
  · intro r hr
    rw [hrefs] at hr
    exact List.mem_range.mp hr
  · intro r hr hq
    have hmem : Json.obj (w.heap r) ∈ findings result₂ := by
      rw [← hstart]
      exact List.mem_map.mpr ⟨r, hr, rfl⟩
    obtain ⟨fields, heq, hclear⟩ := hcleared _ hmem
    cases heq
    exact hclear (by simpa [Work.quantified] using hq)
  · intro r hr id hid
    have hid' := hmemUsed r hr id hid
    rw [hused, findings_eq, hkey, claimedIds_append] at hid'
    exact (List.mem_append.mp hid').elim (hmem₁ id) (hmem₂ id)
  · rintro r hr r' hr' hne id hid id' hid' rfl
    exact hpair.forall hr hr' hne hid hid'

/-! ## Counts -/

/-- What counting does: every finding counted gets the count of its patterns. -/
lemma foldl_recountFinding (st : Statistics) (w : Work) {refs : List Ref} (hrefs : refs.Nodup) :
    (refs.foldl (recountFinding st) w).doc = w.doc ∧
      (refs.foldl (recountFinding st) w).next = w.next ∧
      ∀ r, (refs.foldl (recountFinding st) w).heap r =
        if r ∈ refs then setCount st (w.heap r) (countOf st (w.ids r)) else w.heap r := by
  induction refs using List.reverseRecOn with
  | nil => exact ⟨rfl, rfl, fun r => by simp⟩
  | append_singleton refs x ih =>
    rw [List.nodup_append] at hrefs
    obtain ⟨hinit, -, hlast⟩ := hrefs
    obtain ⟨hdoc, hnext, hheap⟩ := ih hinit
    have hfresh : x ∉ refs := fun hx => hlast x hx x (List.mem_singleton_self x) rfl
    rw [List.foldl_append, List.foldl_cons, List.foldl_nil]
    generalize refs.foldl (recountFinding st) w = v at hdoc hnext hheap ⊢
    have hx : v.heap x = w.heap x := by rw [hheap x, if_neg hfresh]
    refine ⟨hdoc, hnext, fun r => ?_⟩
    rw [recountFinding, Work.heap_write, hx, Work.ids_congr hx]
    by_cases hr : r = x
    · rw [if_pos hr, if_pos (by simp [hr]), hr]
    · rw [if_neg hr, hheap r]
      simp [hr]

variable (st) in
/-- Counting leaves the patterns of the findings alone. -/
lemma recount_items {w : Work} (hrefs : w.doc.refs.Nodup) :
    (recount st w).items = w.items ∧ (∀ r, (recount st w).ids r = w.ids r) ∧
      ∀ r, (recount st w).quantified r = w.quantified r := by
  obtain ⟨hdoc, -, hheap⟩ := foldl_recountFinding st w (hrefs.filter w.quantified)
  change (recount st w).doc = w.doc at hdoc
  change ∀ r, (recount st w).heap r = _ at hheap
  have hids : ∀ r, (recount st w).ids r = w.ids r := by
    intro r
    rw [Work.ids, hheap r]
    split
    · exact idsOf_setCount st _ _
    · rfl
  have hquantified : ∀ r, (recount st w).quantified r = w.quantified r := by
    intro r
    rw [Work.quantified, hheap r]
    split
    · rw [get_setCount_pattern_ids]
      rfl
    · rfl
  refine ⟨?_, hids, hquantified⟩
  rw [Work.items, hdoc, funext hquantified]
  rfl

/-- Counting keeps the findings sound, and they have their counts. -/
lemma recount_counted {w : Work} (hw : Sound (Clash st) st w) : Counted st (recount st w) := by
  have hitems : w.items.Nodup := hw.refs.filter _
  obtain ⟨hdoc, hnext, hheap⟩ := foldl_recountFinding st w hitems
  obtain ⟨hsame, hids, hquantified⟩ := recount_items st hw.refs
  change (recount st w).doc = w.doc at hdoc
  change (recount st w).next = w.next at hnext
  change ∀ r, (recount st w).heap r = _ at hheap
  generalize recount st w = v at hdoc hnext hheap hsame hids hquantified ⊢
  have hcleared : ∀ r ∈ w.doc.refs, w.quantified r = false → v.heap r = w.heap r := by
    intro r hr hq
    rw [hheap r, if_neg]
    intro hitem
    rw [(Work.mem_items.mp hitem).2] at hq
    cases hq
  refine ⟨⟨hdoc ▸ hw.refs, ?_, ?_, ?_, ?_, ?_⟩, ?_⟩
  · rw [hdoc, hnext]
    exact hw.lt
  · intro r hr hq
    rw [hdoc] at hr
    rw [hquantified] at hq
    rw [hcleared r hr hq]
    exact hw.cleared r hr hq
  · rw [hsame]
    intro r hr
    rw [hids r]
    exact hw.known r hr
  · rw [hsame]
    intro r hr
    rw [hids r]
    exact hw.own r hr
  · rw [hsame]
    intro r hr r' hr'
    rw [hids r, hids r']
    exact hw.apart r hr r' hr'
  · rw [hdoc]
    intro r hr
    cases hq : w.quantified r with
    | true =>
      rw [hheap r, if_pos (Work.mem_items.mpr ⟨hr, hq⟩)]
      exact settle_setCount st (by simpa [Work.quantified] using hq)
    | false =>
      rw [hcleared r hr hq, settle, if_pos (by simpa [Work.quantified] using hq)]
      exact hw.cleared r hr hq

/-! ## Unquantified findings -/

/-- The patterns of a family. -/
lemma memberIds_spec (hst : st.WellFormed) (family : PyStr) :
    (memberIds st family).Nodup ∧ ∀ id ∈ memberIds st family, id ∈ patternIds st ∧
      Dict.get? (familyByPattern st) id = some family := by
  have hsub : (memberIds st family).Sublist (patternIds st) :=
    ((List.filter_sublist (p := _)).trans (List.filter_sublist (p := _))).map _
  refine ⟨hst.patternIds.sublist hsub, fun id hid => ⟨hsub.mem hid, ?_⟩⟩
  obtain ⟨p, hp, rfl⟩ := List.mem_map.mp hid
  obtain ⟨hp, hfamily⟩ := List.mem_filter.mp hp
  refine (get?_familyByPattern hst).mpr ⟨p, hp, rfl, ?_⟩
  have hsome : p.familyId = some family := by simpa using hfamily
  rw [Pattern.family, hsome]
  rfl

/-- Patterns of a family do not clash with those of other families. -/
lemma not_clash {id id' family : PyStr}
    (h : Dict.get? (familyByPattern st) id = some family)
    (h' : Dict.get? (familyByPattern st) id' ≠ some family) : ¬ Clash st id id' := by
  rintro (rfl | ⟨other, hother, hother'⟩)
  · exact h' h
  · rw [h] at hother
    cases hother
    exact h' hother'

/-- A finding gets other patterns and their count. -/
def claim (st : Statistics) (w : Work) (r : Ref) (ids : List PyStr) : Work :=
  (w.setIds r ids).write r (setCount st ((w.setIds r ids).heap r) (countOf st ids))

lemma heap_claim (w : Work) (r : Ref) (ids : List PyStr) :
    (claim st w r ids).heap r =
      setCount st (Dict.set (w.heap r) (py "pattern_ids") (texts ids)) (countOf st ids) := by
  rw [claim, Work.heap_write, if_pos rfl, Work.heap_setIds, if_pos rfl]

lemma heap_claim_of_ne (st : Statistics) (w : Work) {r x : Ref} (ids : List PyStr) (h : x ≠ r) :
    (claim st w r ids).heap x = w.heap x := by
  rw [claim, Work.heap_write, if_neg h, Work.heap_setIds, if_neg h]

lemma ids_claim (st : Statistics) (w : Work) (r : Ref) (ids : List PyStr) :
    (claim st w r ids).ids r = ids := by
  rw [Work.ids, heap_claim, idsOf_setCount, idsOf_set_pattern_ids]

/-- A finding may get known patterns that clash with those of no other finding. -/
lemma Counted.claim (hst : st.WellFormed) {w : Work} {r : Ref} {ids : List PyStr}
    (hw : Counted st w) (hr : r ∈ w.doc.refs) (hknown : ∀ id ∈ ids, id ∈ patternIds st)
    (hown : ids.Nodup)
    (hapart : ∀ x ∈ w.items, x ≠ r → ∀ id ∈ ids, ∀ id' ∈ w.ids x, ¬ Clash st id id') :
    Counted st (claim st w r ids) ∧ r ∈ (claim st w r ids).items := by
  have hfree : py "unquantified" ∉ ids := fun h => unquantified_not_mem hst (hknown _ h)
  have hmarker : isUnquantified (Json.Fields.get
      (Dict.set (w.heap r) (py "pattern_ids") (texts ids)) (py "pattern_ids")) = false := by
    simp [isUnquantified_texts hfree]
  have hq : (Triage.claim st w r ids).quantified r = true := by
    simp [Work.quantified, heap_claim, isUnquantified_texts hfree]
  have hids := ids_claim st w r ids
  refine ⟨hw.insert (r := r) hw.refs (fun x hx => .inr hx) hw.lt
    (fun x hx => heap_claim_of_ne st w ids hx) hq ?_ (hids.symm ▸ hknown) (hids.symm ▸ hown)
    (hids.symm ▸ hapart), Work.mem_items.mpr ⟨hr, hq⟩⟩
  rw [heap_claim]
  have hsettle := settle_setCount st hmarker
  rwa [idsOf_set_pattern_ids] at hsettle

/-- What the loop over the unquantified findings keeps: counted findings whose families are all
recorded as used. -/
structure Repairing (st : Statistics) (w : Work) (s : Repaired) : Prop where
  counted : Counted st s.work
  doc : s.work.doc = w.doc
  used : ∀ r ∈ s.work.items, ∀ id ∈ s.work.ids r, ∀ family,
    Dict.get? (familyByPattern st) id = some family → family ∈ s.familyUsed

lemma Repairing.step (hst : st.WellFormed) {w : Work} {s : Repaired} (h : Repairing st w s)
    {r : Ref} (hr : r ∈ w.doc.refs) : Repairing st w (repairFinding env st s r) := by
  unfold repairFinding
  split
  · next family _ =>
    split
    · exact ⟨h.counted, h.doc, h.used⟩
    · next hfree =>
      have hfree : family ∉ s.familyUsed := by simpa using hfree
      obtain ⟨hnodup, hmembers⟩ := memberIds_spec hst family
      split
      · exact h
      · next members hnonempty =>
        -- the family of the patterns is not used, so they clash with no others
        have hapart : ∀ x ∈ s.work.items, x ≠ r → ∀ id ∈ memberIds st family,
            ∀ id' ∈ s.work.ids x, ¬ Clash st id id' := fun x hx _ id hid id' hid' =>
          not_clash (hmembers id hid).2 fun hf => hfree (h.used x hx id' hid' family hf)
        obtain ⟨hcounted, hitem⟩ := h.counted.claim hst (h.doc ▸ hr)
          (fun id hid => (hmembers id hid).1) hnodup hapart
        refine ⟨hcounted, h.doc, fun x hx id hid f hf => ?_⟩
        change x ∈ (Triage.claim st s.work r (memberIds st family)).items at hx
        change id ∈ (Triage.claim st s.work r (memberIds st family)).ids x at hid
        by_cases hxr : x = r
        · rw [hxr, ids_claim] at hid
          rw [(hmembers id hid).2] at hf
          cases hf
          exact List.mem_cons_self
        · have hheap := heap_claim_of_ne st s.work (memberIds st family) hxr
          rw [Work.ids_congr hheap] at hid
          obtain ⟨hx, hq⟩ := Work.mem_items.mp hx
          rw [Work.quantified_congr hheap] at hq
          exact List.mem_cons_of_mem _
            (h.used x (Work.mem_items.mpr ⟨hx, hq⟩) id hid f hf)
  · exact h

lemma Repairing.foldl (env : Env) (hst : st.WellFormed) {w : Work} (refs : List Ref)
    (hrefs : ∀ r ∈ refs, r ∈ w.doc.refs) {s : Repaired} (h : Repairing st w s) :
    Repairing st w (refs.foldl (repairFinding env st) s) := by
  induction refs generalizing s with
  | nil => exact h
  | cons r refs ih =>
    exact ih (fun x hx => hrefs x (List.mem_cons_of_mem r hx))
      (h.step hst (hrefs r List.mem_cons_self))

/-- Repairing the unquantified findings keeps the findings counted. -/
lemma repairUnquantified_counted (hst : st.WellFormed) {w : Work} (hw : Counted st w) :
    Counted st (repairUnquantified env st w) := by
  have hstart : Repairing st w
      ⟨w, (usedIds w).filterMap (Dict.get? (familyByPattern st)), []⟩ := by
    refine ⟨hw, rfl, fun r hr id hid family hf => ?_⟩
    exact List.mem_filterMap.mpr ⟨id, List.mem_flatMap.mpr ⟨r, hr, hid⟩, hf⟩
  have hloop := hstart.foldl env hst (w.doc.refs.filter fun r => !w.quantified r)
    fun r hr => (List.mem_filter.mp hr).1
  unfold repairUnquantified
  dsimp only
  generalize (w.doc.refs.filter fun r => !w.quantified r).foldl (repairFinding env st)
    ⟨w, (usedIds w).filterMap (Dict.get? (familyByPattern st)), []⟩ = s at hloop ⊢
  obtain ⟨hkey, hsecondary, -⟩ := Doc.nodup_refs.mp hloop.counted.refs
  refine hloop.counted.subset rfl rfl
    (Doc.nodup_refs_of_subset hloop.counted.refs (hkey.filter _) (hsecondary.filter _)
      (fun r hr => (List.mem_filter.mp hr).1) fun r hr => (List.mem_filter.mp hr).1) fun r hr => ?_
  rcases List.mem_append.mp hr with hr | hr
  · exact List.mem_append_left _ (List.mem_filter.mp hr).1
  · exact List.mem_append_right _ (List.mem_filter.mp hr).1

/-! ## Appended findings -/

/-- A finding recorded under a family has one of its patterns, and every finding with one makes
the family recorded. -/
lemma existingByFamily_spec (hst : st.WellFormed) (w : Work)
    (family : PyStr) (hne : family ≠ []) :
    (∀ r, Dict.get? (existingByFamily st w) family = some r → r ∈ w.items ∧
        ∃ id ∈ w.ids r, Dict.get? (familyByPattern st) id = some family) ∧
      (Dict.get? (existingByFamily st w) family = none → ∀ r ∈ w.items, ∀ id ∈ w.ids r,
        Dict.get? (familyByPattern st) id ≠ some family) := by
  constructor
  · intro r hr
    obtain ⟨x, hx, hmem⟩ := List.mem_flatMap.mp (Dict.mem_of_get?_ofList hr)
    obtain ⟨id, hid, hfound⟩ := List.mem_filterMap.mp hmem
    split at hfound
    · next c cs hf =>
      cases hfound
      refine ⟨Work.mem_items.mpr ⟨hx, ?_⟩, id, hid, hf⟩
      -- an unquantified finding has no pattern
      by_contra hq
      have hq' : w.quantified r = false := by simpa using hq
      have hmarker : (w.heap r).get (py "pattern_ids") = unquantifiedIds :=
        isUnquantified_iff.mp (by simpa [Work.quantified] using hq')
      have hid' : id ∈ idsOf (w.heap r) := hid
      rw [idsOf, hmarker] at hid'
      obtain ⟨p, hp, hpid, -⟩ := (get?_familyByPattern hst).mp hf
      have hmarkerId : id = py "unquantified" := by simpa [unquantifiedIds, textsOf] using hid'
      exact hst.patternNamed p (List.mem_filter.mp hp).1 (hpid.trans hmarkerId)
    · cases hfound
  · intro hnone r hr id hid hf
    obtain ⟨c, cs, rfl⟩ := List.exists_cons_of_ne_nil hne
    refine Dict.get?_ofList_ne_none (p := (c :: cs, r)) ?_ hnone
    exact List.mem_flatMap.mpr ⟨r, (Work.mem_items.mp hr).1,
      List.mem_filterMap.mpr ⟨id, hid, by rw [hf]⟩⟩

/-- A family whose patterns are to be appended. -/
structure Pending (st : Statistics) (existing : Dict PyStr Ref) (w : Work)
    (group : PyStr × List Pattern) : Prop where
  named : ∀ p ∈ group.2, p ∈ namedPatterns st ∧ p.family = group.1
  nodup : (group.2.map (·.id)).Nodup
  /-- nobody has claimed them -/
  free : ∀ p ∈ group.2, ∀ r ∈ w.items, p.id ∉ w.ids r
  owner : ∀ r, Dict.get? existing group.1 = some r → r ∈ w.items ∧
    ∃ id ∈ w.ids r, Dict.get? (familyByPattern st) id = some group.1
  unowned : Dict.get? existing group.1 = none → ∀ r ∈ w.items, ∀ id ∈ w.ids r,
    Dict.get? (familyByPattern st) id ≠ some group.1

/-- What appending the patterns of a family does: no finding loses a pattern, and they are the
only ones that are new. -/
structure Appended (w w' : Work) (ids : List PyStr) : Prop where
  grows : ∀ r ∈ w.items, r ∈ w'.items ∧ ∀ id ∈ w.ids r, id ∈ w'.ids r
  covers : ∀ id ∈ ids, ∃ r ∈ w'.items, id ∈ w'.ids r
  only : ∀ r ∈ w'.items, ∀ id ∈ w'.ids r, id ∈ ids ∨ (r ∈ w.items ∧ id ∈ w.ids r)

lemma Appended.refl (w : Work) : Appended w w [] :=
  ⟨fun _ hr => ⟨hr, fun _ hid => hid⟩, by simp, fun _ hr _ hid => .inr ⟨hr, hid⟩⟩

/-- The patterns of a finding that is replaced or added. -/
lemma Appended.of_insert {w w' : Work} {r : Ref} {ids : List PyStr} (hr : r ∈ w'.items)
    (hheap : ∀ x, x ≠ r → w'.heap x = w.heap x)
    (hrefs : ∀ x, x ≠ r → (x ∈ w'.doc.refs ↔ x ∈ w.doc.refs))
    (hids : ∀ id, id ∈ w'.ids r ↔ (r ∈ w.items ∧ id ∈ w.ids r) ∨ id ∈ ids) :
    Appended w w' ids where
  grows x hx := by
    by_cases hxr : x = r
    · subst hxr
      exact ⟨hr, fun id hid => (hids id).mpr (.inl ⟨hx, hid⟩)⟩
    · obtain ⟨hmem, hq⟩ := Work.mem_items.mp hx
      rw [Work.ids_congr (hheap x hxr)]
      exact ⟨Work.mem_items.mpr
        ⟨(hrefs x hxr).mpr hmem, (Work.quantified_congr (hheap x hxr)).trans hq⟩, fun _ h => h⟩
  covers id hid := ⟨r, hr, (hids id).mpr (.inr hid)⟩
  only x hx id hid := by
    by_cases hxr : x = r
    · subst hxr
      exact ((hids id).mp hid).symm
    · obtain ⟨hmem, hq⟩ := Work.mem_items.mp hx
      rw [Work.ids_congr (hheap x hxr)] at hid
      exact .inr ⟨Work.mem_items.mpr
        ⟨(hrefs x hxr).mp hmem, (Work.quantified_congr (hheap x hxr)).symm.trans hq⟩, hid⟩

/-- A finding for a family has the patterns and the count it is made for. -/
lemma familyFinding_spec (st : Statistics) (kind : String) (family : PyStr) (item : Pattern)
    (ids : List PyStr) (count : ℕ) (detailEn detailZh : PyStr) :
    Json.Fields.get (familyFinding st kind family item ids count detailEn detailZh)
        (py "pattern_ids") = texts ids ∧
      setCount st (familyFinding st kind family item ids count detailEn detailZh) count =
        familyFinding st kind family item ids count detailEn detailZh := by
  have hcount : Dict.get? (familyFinding st kind family item ids count detailEn detailZh)
      (py "count") = some (.int count) := by
    simp [familyFinding, Dict.get?_cons]
  have hpercentage : Dict.get? (familyFinding st kind family item ids count detailEn detailZh)
      (py "percentage") = some (percentage count st.totalEntries) := by
    simp [familyFinding, Dict.get?_cons]
  constructor
  · simp [familyFinding, Json.Fields.get, Json.Fields.getD, Dict.get?_cons]
  · rw [setCount, Dict.set_eq_self hcount, Dict.set_eq_self hpercentage]

/-- Appending the patterns of one family. -/
lemma appendFamily_spec (env : Env) (hst : st.WellFormed) {existing : Dict PyStr Ref} {w : Work}
    {group : PyStr × List Pattern} (hw : Counted st w) (h : Pending st existing w group) :
    Counted st (appendFamily env st existing w group) ∧
      Appended w (appendFamily env st existing w group) (group.2.map (·.id)) := by
  obtain ⟨family, items⟩ := group
  have hfamily : ∀ id ∈ items.map (·.id), id ∈ patternIds st ∧
      Dict.get? (familyByPattern st) id = some family := by
    intro id hid
    obtain ⟨p, hp, rfl⟩ := List.mem_map.mp hid
    obtain ⟨hnamed, hf⟩ := h.named p hp
    exact ⟨List.mem_map_of_mem (List.mem_filter.mp hnamed).1,
      (get?_familyByPattern hst).mpr ⟨p, hnamed, rfl, hf⟩⟩
  have hfree : ∀ id ∈ items.map (·.id), ∀ r ∈ w.items, id ∉ w.ids r := by
    intro id hid r hr
    obtain ⟨p, hp, rfl⟩ := List.mem_map.mp hid
    exact h.free p hp r hr
  unfold appendFamily
  dsimp only
  split
  · next r hexisting =>
    obtain ⟨hr, own, hown, hownFamily⟩ := h.owner r hexisting
    have hall : (w.ids r ++ items.map (·.id)).eraseDups = w.ids r ++ items.map (·.id) := by
      refine List.eraseDups_of_nodup (List.nodup_append.mpr ⟨hw.own r hr, h.nodup, ?_⟩)
      rintro a ha b hb rfl
      exact hfree a hb r hr ha
    have hnodup : (w.ids r ++ items.map (·.id)).Nodup := hall ▸ List.nodup_eraseDups _
    rw [hall]
    -- the finding has a pattern of the family, so no other finding has one
    have hapart : ∀ x ∈ w.items, x ≠ r → ∀ id ∈ w.ids r ++ items.map (·.id),
        ∀ id' ∈ w.ids x, ¬ Clash st id id' := by
      intro x hx hne id hid id' hid'
      rcases List.mem_append.mp hid with hid | hid
      · exact hw.apart r hr x hx (Ne.symm hne) id hid id' hid'
      · refine not_clash (hfamily id hid).2 fun hf => ?_
        exact hw.apart r hr x hx (Ne.symm hne) own hown id' hid' (.inr ⟨family, hownFamily, hf⟩)
    obtain ⟨hcounted, hitem⟩ := hw.claim hst (Work.mem_items.mp hr).1
      (fun id hid => (List.mem_append.mp hid).elim (hw.known r hr id) fun hid => (hfamily id hid).1)
      hnodup hapart
    refine ⟨hcounted, .of_insert hitem (fun x hx => heap_claim_of_ne st w _ hx)
      (fun x _ => Iff.rfl) fun id => ?_⟩
    change id ∈ (Triage.claim st w r _).ids r ↔ _
    rw [ids_claim, List.mem_append]
    simp [hr]
  · next hexisting =>
    split
    · exact ⟨hw, .refl w⟩
    · next item rest =>
      have hcount : ((item :: rest).map (·.count)).sum = countOf st ((item :: rest).map (·.id)) := by
        rw [countOf, List.map_map]
        congr 1
        exact List.map_congr_left fun p hp =>
          (patternCount_id hst (List.mem_filter.mp (h.named p hp).1).1).symm
      have hnodup : ((item :: rest).map (·.id)).Nodup := h.nodup
      rw [hcount]
      generalize (item :: rest).map (·.id) = ids at hfamily hfree hnodup ⊢
      obtain ⟨hpattern, hset⟩ := familyFinding_spec st "unlabeled-" family item ids
        (countOf st ids)
        (py "Observed related log entries matching: " ++
          descriptor env ((Dict.get? (familyLabels st) family).getD item.template) ++ py ".")
        (py "相关日志条目匹配以下模式：" ++
          descriptor env ((Dict.get? (familyLabels st) family).getD item.template) ++ py "。")
      generalize familyFinding st "unlabeled-" family item ids (countOf st ids) _ _ = finding
        at hpattern hset ⊢
      have hfresh : w.next ∉ w.doc.refs := fun hmem => Nat.lt_irrefl _ (hw.lt _ hmem)
      have hmarker : isUnquantified (Json.Fields.get finding (py "pattern_ids")) = false := by
        rw [hpattern]
        exact isUnquantified_texts fun hid => unquantified_not_mem hst (hfamily _ hid).1
      have hidsOf : idsOf finding = ids := by
        rw [idsOf, hpattern]
        exact textsOf_map_str ids
      generalize hw' : ({ w.write w.next finding with
        next := w.next + 1
        doc := { w.doc with secondaryFinds := w.doc.secondaryFinds ++ [w.next] } } : Work) = w'
      have hrefs : w'.doc.refs = w.doc.refs ++ [w.next] := by
        rw [← hw']
        exact (List.append_assoc _ _ _).symm
      have hheap : ∀ x, x ≠ w.next → w'.heap x = w.heap x := by
        intro x hx
        rw [← hw']
        exact (w.heap_write w.next x finding).trans (if_neg hx)
      have hself : w'.heap w.next = finding := by
        rw [← hw']
        exact (w.heap_write w.next w.next finding).trans (if_pos rfl)
      have hids : w'.ids w.next = ids := by rw [Work.ids, hself, hidsOf]
      have hq : w'.quantified w.next = true := by rw [Work.quantified, hself, hmarker]; rfl
      have hmem : ∀ x, x ∈ w'.doc.refs ↔ x ∈ w.doc.refs ∨ x = w.next := by
        intro x
        rw [hrefs, List.mem_append, List.mem_singleton]
      have hcounted : Counted st w' := by
        refine hw.insert (r := w.next) ?_ (fun x hx => ((hmem x).mp hx).symm) (fun x hx => ?_)
          hheap hq ?_ (hids.symm ▸ fun id hid => (hfamily id hid).1) (hids.symm ▸ hnodup) ?_
        · rw [hrefs]
          refine List.nodup_append.mpr ⟨hw.refs, List.nodup_singleton _, ?_⟩
          rintro a ha b hb rfl
          exact hfresh (List.mem_singleton.mp hb ▸ ha)
        · have hnext : w'.next = w.next + 1 := by rw [← hw']
          rcases (hmem x).mp hx with hx | rfl
          · exact hnext ▸ Nat.lt_succ_of_lt (hw.lt x hx)
          · exact hnext ▸ Nat.lt_succ_self _
        · rw [hself, settle, hmarker, if_neg (by simp), hidsOf, hset]
        · rw [hids]
          intro x hx _ id hid id' hid'
          exact not_clash (hfamily id hid).2 (h.unowned hexisting x hx id' hid')
      refine ⟨hcounted, .of_insert (Work.mem_items.mpr ⟨(hmem _).mpr (.inr rfl), hq⟩) hheap
        (fun x hx => by rw [hmem]; simp [hx]) fun id => ?_⟩
      rw [hids]
      constructor
      · exact .inr
      · rintro (⟨hx, -⟩ | hid)
        · exact absurd (Work.mem_items.mp hx).1 hfresh
        · exact hid

/-- The patterns of another family are still to be appended afterwards. -/
lemma Pending.mono (hst : st.WellFormed) {existing : Dict PyStr Ref} {w w' : Work}
    {group other : PyStr × List Pattern} (h : Pending st existing w other)
    (hne : other.1 ≠ group.1) (hgroup : ∀ p ∈ group.2, p ∈ namedPatterns st ∧ p.family = group.1)
    (happended : Appended w w' (group.2.map (·.id))) : Pending st existing w' other := by
  have hfamily : ∀ id ∈ group.2.map (·.id),
      Dict.get? (familyByPattern st) id = some group.1 := by
    intro id hid
    obtain ⟨p, hp, rfl⟩ := List.mem_map.mp hid
    exact (get?_familyByPattern hst).mpr ⟨p, (hgroup p hp).1, rfl, (hgroup p hp).2⟩
  refine ⟨h.named, h.nodup, fun p hp r hr hid => ?_, fun r hr => ?_, fun hnone r hr id hid hf => ?_⟩
  · rcases happended.only r hr p.id hid with hid | ⟨hr, hid⟩
    · have hp' := (get?_familyByPattern hst).mpr ⟨p, (h.named p hp).1, rfl, (h.named p hp).2⟩
      rw [hfamily p.id hid] at hp'
      exact hne (Option.some.inj hp').symm
    · exact h.free p hp r hr hid
  · obtain ⟨hitem, id, hid, hf⟩ := h.owner r hr
    obtain ⟨hitem', hids⟩ := happended.grows r hitem
    exact ⟨hitem', id, hids id hid, hf⟩
  · rcases happended.only r hr id hid with hid | ⟨hr, hid⟩
    · rw [hfamily id hid] at hf
      exact hne (Option.some.inj hf).symm
    · exact h.unowned hnone r hr id hid hf

/-- Appending the patterns of several families. -/
lemma foldl_appendFamily (env : Env) (hst : st.WellFormed) {existing : Dict PyStr Ref} {w : Work}
    {groups : Dict PyStr (List Pattern)} (hkeys : (Dict.keys groups).Nodup) (hw : Counted st w)
    (h : ∀ group ∈ groups, Pending st existing w group) :
    Counted st (groups.foldl (appendFamily env st existing) w) ∧
      (∀ r ∈ w.items, r ∈ (groups.foldl (appendFamily env st existing) w).items ∧
        ∀ id ∈ w.ids r, id ∈ (groups.foldl (appendFamily env st existing) w).ids r) ∧
      ∀ group ∈ groups, ∀ p ∈ group.2,
        ∃ r ∈ (groups.foldl (appendFamily env st existing) w).items,
          p.id ∈ (groups.foldl (appendFamily env st existing) w).ids r := by
  induction groups generalizing w with
  | nil => exact ⟨hw, fun r hr => ⟨hr, fun _ hid => hid⟩, by simp⟩
  | cons group groups ih =>
    obtain ⟨hkey, hkeys⟩ := List.nodup_cons.mp hkeys
    have hgroup := h group List.mem_cons_self
    obtain ⟨hcounted, happended⟩ := appendFamily_spec env hst hw hgroup
    have hrest : ∀ other ∈ groups, Pending st existing (appendFamily env st existing w group)
        other := by
      intro other hother
      refine (h other (List.mem_cons_of_mem _ hother)).mono hst ?_ hgroup.named happended
      intro heq
      exact hkey (List.mem_map.mpr ⟨other, hother, heq⟩)
    obtain ⟨hall, hgrows, hcovers⟩ := ih hkeys hcounted hrest
    rw [List.foldl_cons]
    refine ⟨hall, fun r hr => ?_, fun g hg p hp => ?_⟩
    · obtain ⟨hr', hids⟩ := happended.grows r hr
      obtain ⟨hr'', hids'⟩ := hgrows r hr'
      exact ⟨hr'', fun id hid => hids' id (hids id hid)⟩
    · rcases List.mem_cons.mp hg with rfl | hg
      · obtain ⟨r, hr, hid⟩ := happended.covers p.id (List.mem_map_of_mem hp)
        obtain ⟨hr', hids⟩ := hgrows r hr
        exact ⟨r, hr', hids p.id hid⟩
      · exact hcovers g hg p hp

/-- The unused patterns by family: each of them is to be appended. -/
lemma omittedByFamily_spec (hst : st.WellFormed) (w : Work) :
    (Dict.keys (omittedByFamily st (usedIds w))).Nodup ∧
      (∀ group ∈ omittedByFamily st (usedIds w), Pending st (existingByFamily st w) w group) ∧
      ∀ p ∈ namedPatterns st, p.id ∉ usedIds w →
        ∃ group ∈ omittedByFamily st (usedIds w), p ∈ group.2 := by
  let omitted := (namedPatterns st).filter fun p => !(usedIds w).contains p.id
  let groups := omittedByFamily st (usedIds w)
  have hkeys : (Dict.keys groups).Nodup :=
    Dict.nodup_keys_foldl_push Pattern.family id omitted List.nodup_nil
  have hgetD : ∀ family, Dict.getD groups family [] = omitted.filter fun p => p.family = family := by
    intro family
    have h := Dict.getD_foldl_push Pattern.family id omitted [] family
    rw [List.map_id] at h
    exact h
  have hgroup : ∀ group ∈ groups, group.2 = omitted.filter fun p => p.family = group.1 := by
    intro group hg
    rw [← hgetD, Dict.getD, Dict.get?_of_mem hkeys hg]
    rfl
  have hmem : ∀ p ∈ omitted, p ∈ namedPatterns st ∧ p.id ∉ usedIds w := by
    intro p hp
    obtain ⟨hnamed, hfree⟩ := List.mem_filter.mp hp
    exact ⟨hnamed, by simpa using hfree⟩
  refine ⟨hkeys, fun group hg => ?_, fun p hp hunused => ?_⟩
  · have heq := hgroup group hg
    have hin : ∀ p ∈ group.2, p ∈ omitted ∧ p.family = group.1 := by
      intro p hp
      rw [heq, List.mem_filter] at hp
      exact ⟨hp.1, by simpa using hp.2⟩
    have hsub : (group.2.map (·.id)).Sublist (patternIds st) := by
      rw [heq]
      exact (((List.filter_sublist (p := _)).trans (List.filter_sublist (p := _))).trans
        (List.filter_sublist (p := _))).map _
    have hne : group.1 ≠ [] := by
      obtain ⟨p, hp⟩ := List.exists_mem_of_ne_nil _
        (Dict.ne_nil_of_mem_foldl_push Pattern.family id omitted (by simp) group hg)
      obtain ⟨hp, hfamily⟩ := hin p hp
      obtain ⟨family, hsome, hne⟩ := hst.patternFamily p (List.mem_filter.mp (hmem p hp).1).1
      rw [← hfamily, Pattern.family, hsome]
      exact hne
    obtain ⟨howner, hunowned⟩ := existingByFamily_spec hst w group.1 hne
    exact ⟨fun p hp => ⟨(hmem p (hin p hp).1).1, (hin p hp).2⟩, hst.patternIds.sublist hsub,
      fun p hp r hr hid => (hmem p (hin p hp).1).2 (List.mem_flatMap.mpr ⟨r, hr, hid⟩),
      howner, hunowned⟩
  · have hin : p ∈ Dict.getD groups p.family [] := by
      rw [hgetD, List.mem_filter]
      exact ⟨List.mem_filter.mpr ⟨hp, by simpa using hunused⟩, by simp⟩
    cases hget : Dict.get? groups p.family with
    | none =>
      rw [Dict.getD, hget] at hin
      cases hin
    | some items =>
      rw [Dict.getD, hget] at hin
      exact ⟨_, Dict.mem_of_get?_eq_some hget, hin⟩

/-- **After the appending every pattern but `other` is claimed.** -/
theorem appendOmitted_counted (env : Env) (hst : st.WellFormed) {w : Work} (hw : Counted st w) :
    Counted st (appendOmitted env st w) ∧ ∀ p ∈ namedPatterns st,
      ∃ r ∈ (appendOmitted env st w).items, p.id ∈ (appendOmitted env st w).ids r := by
  obtain ⟨hkeys, hpending, homitted⟩ := omittedByFamily_spec hst w
  obtain ⟨hcounted, hgrows, hcovers⟩ := foldl_appendFamily env hst hkeys hw hpending
  refine ⟨hcounted, fun p hp => ?_⟩
  by_cases hused : p.id ∈ usedIds w
  · obtain ⟨r, hr, hid⟩ := List.mem_flatMap.mp hused
    obtain ⟨hr', hids⟩ := hgrows r hr
    exact ⟨r, hr', hids p.id hid⟩
  · obtain ⟨group, hgroup, hmem⟩ := homitted p hp hused
    exact hcovers group hgroup p hmem

/-- A result without key finds has some secondary find, which becomes one. -/
lemma promote_refs {w : Work} (h : ∀ p ∈ namedPatterns st, ∃ r ∈ w.items, p.id ∈ w.ids r) :
    (promote st w).doc.refs = w.doc.refs ∧ (promote st w).heap = w.heap ∧
      (promote st w).next = w.next := by
  unfold promote
  split
  · next r rest hkey hsecondary =>
    refine ⟨?_, rfl, rfl⟩
    rw [Doc.refs, Doc.refs, hkey, hsecondary]
    rfl
  · next hkey hsecondary =>
    split
    · next item hitem =>
      obtain ⟨r, hr, -⟩ := h item (List.mem_of_head? hitem)
      have hrefs := (Work.mem_items.mp hr).1
      rw [Doc.refs, hkey, hsecondary] at hrefs
      cases hrefs
    · exact ⟨rfl, rfl, rfl⟩
  · exact ⟨rfl, rfl, rfl⟩

/-! ## The whole -/

/-- What follows the first loop leaves counted findings that claim every pattern but `other`. -/
theorem finishPatterns_counted (env : Env) (hst : st.WellFormed) (fallback : Bool) {w : Work}
    (hw : Sound (· = ·) st w) :
    Counted st (finishPatterns env st fallback w) ∧ ∀ p ∈ namedPatterns st,
      ∃ r ∈ (finishPatterns env st fallback w).items,
        p.id ∈ (finishPatterns env st fallback w).ids r := by
  have hmerged : Sound (Clash st) st (mergeFamilies env st w) := mergeFamilies_sound hst hw
  have hdetails : Sound (Clash st) st
      (if fallback then mergeDuplicates env (mergeFamilies env st w)
        else mergeFamilies env st w) := by
    split
    · exact mergeDuplicates_sound hst hmerged
    · exact hmerged
  have hcounted := recount_counted hdetails
  unfold finishPatterns
  dsimp only
  generalize recount st _ = w₁ at hcounted ⊢
  have hrepaired : Counted st (if fallback then repairUnquantified env st w₁ else w₁) := by
    split
    · exact repairUnquantified_counted hst hcounted
    · exact hcounted
  generalize (if fallback then repairUnquantified env st w₁ else w₁) = w₂ at hrepaired ⊢
  obtain ⟨happended, hcovers⟩ := appendOmitted_counted env hst hrepaired
  generalize appendOmitted env st w₂ = w₃ at happended hcovers ⊢
  have hpromoted : (if fallback then promote st w₃ else w₃).doc.refs = w₃.doc.refs ∧
      (if fallback then promote st w₃ else w₃).heap = w₃.heap ∧
        (if fallback then promote st w₃ else w₃).next = w₃.next := by
    split
    · exact promote_refs hcovers
    · exact ⟨rfl, rfl, rfl⟩
  generalize (if fallback then promote st w₃ else w₃) = w₄ at hpromoted ⊢
  obtain ⟨hrefs, hheap, hnext⟩ := hpromoted
  refine ⟨happended.subset hheap hnext ?_ ?_, fun p hp => ?_⟩
  · exact hrefs ▸ happended.refs
  · exact fun r hr => hrefs ▸ hr
  · obtain ⟨r, hr, hid⟩ := hcovers p hp
    obtain ⟨hr, hq⟩ := Work.mem_items.mp hr
    have hsame : w₄.heap r = w₃.heap r := by rw [hheap]
    refine ⟨r, Work.mem_items.mpr ⟨?_, (Work.quantified_congr hsame).trans hq⟩,
      (Work.ids_congr hsame).symm ▸ hid⟩
    exact hrefs.symm ▸ hr

/-- What a reconciled result looks like: every finding is settled, the quantified ones claim every
pattern but `other`, and no two of them have patterns that clash. -/
structure Reconciled (st : Statistics) (result : Json.Fields) : Prop where
  groups : ∀ name ∈ groupNames, ∃ items, Json.Fields.get result name = .arr items
  settled : ∀ f ∈ findings result, ∃ fields, f = .obj fields ∧ settle st fields = fields
  known : ∀ f ∈ findings result, isQuantified f = true → ∀ id ∈ patternIdsOf f, id ∈ patternIds st
  own : ∀ f ∈ findings result, isQuantified f = true → (patternIdsOf f).Nodup
  apart : ((findings result).filter isQuantified).Pairwise fun f g =>
    ∀ id ∈ patternIdsOf f, ∀ id' ∈ patternIdsOf g, ¬ Clash st id id'
  complete : ∀ p ∈ namedPatterns st, p.id ∈ claimedIds (findings result)
  total : Dict.get? result (py "total_entries") = some (.int st.totalEntries)

/-- The groups of a document as a value. -/
lemma Doc.get_read (heap : Ref → Json.Fields) (doc : Doc) :
    Json.Fields.get (doc.read heap) (py "key_finds") =
        .arr (doc.keyFinds.map fun r => .obj (heap r)) ∧
      Json.Fields.get (doc.read heap) (py "secondary_finds") =
        .arr (doc.secondaryFinds.map fun r => .obj (heap r)) := by
  constructor <;> simp [Doc.read]

lemma findings_read (w : Work) :
    findings (w.doc.read w.heap) = w.doc.refs.map fun r => .obj (w.heap r) := by
  obtain ⟨hkey, hsecondary⟩ := Doc.get_read w.heap w.doc
  rw [findings_eq, groupItems, hkey, groupItems, hsecondary, Doc.refs, List.map_append]

/-- Counted findings that claim everything make a reconciled result. -/
lemma Counted.reconciled {w : Work} (hw : Counted st w)
    (hcomplete : ∀ p ∈ namedPatterns st, ∃ r ∈ w.items, p.id ∈ w.ids r)
    (htotal : Dict.get? w.doc.fields (py "total_entries") = some (.int st.totalEntries)) :
    Reconciled st (w.doc.read w.heap) := by
  have hfindings := findings_read w
  have hquantified : ∀ r ∈ w.doc.refs, isQuantified (.obj (w.heap r)) = true → r ∈ w.items :=
    fun r hr hq => Work.mem_items.mpr ⟨hr, hq⟩
  refine ⟨?_, ?_, ?_, ?_, ?_, ?_, ?_⟩
  · obtain ⟨hkey, hsecondary⟩ := Doc.get_read w.heap w.doc
    intro name hname
    simp only [groupNames, List.mem_cons, List.not_mem_nil, or_false] at hname
    rcases hname with rfl | rfl
    · exact ⟨_, hkey⟩
    · exact ⟨_, hsecondary⟩
  · intro f hf
    rw [hfindings] at hf
    obtain ⟨r, hr, rfl⟩ := List.mem_map.mp hf
    exact ⟨_, rfl, hw.settled r hr⟩
  · intro f hf hq
    rw [hfindings] at hf
    obtain ⟨r, hr, rfl⟩ := List.mem_map.mp hf
    exact hw.known r (hquantified r hr hq)
  · intro f hf hq
    rw [hfindings] at hf
    obtain ⟨r, hr, rfl⟩ := List.mem_map.mp hf
    exact hw.own r (hquantified r hr hq)
  · rw [hfindings, List.filter_map, List.pairwise_map]
    have hitems : w.items.Pairwise fun r r' => r ≠ r' := hw.refs.filter _
    refine hitems.imp_of_mem ?_
    intro r r' hr hr' hne id hid id' hid'
    exact hw.apart r hr r' hr' hne id hid id' hid'
  · intro p hp
    obtain ⟨r, hr, hid⟩ := hcomplete p hp
    rw [hfindings, claimedIds_refs]
    exact List.mem_flatMap.mpr ⟨r, hr, hid⟩
  · rw [Doc.read, Dict.get?_set_of_ne _ _ (by decide), Dict.get?_set_of_ne _ _ (by decide)]
    exact htotal

/-- **A result that is reconciled by patterns looks like one.** -/
theorem reconcilePatterns_reconciled (hst : st.WellFormed) {result out left : Json.Fields}
    (h : reconcilePatterns env st fallback result = .ok (out, left)) : Reconciled st out := by
  obtain ⟨⟨result₁, s₁⟩, h₁, h⟩ := Except.bind_eq_ok.mp h
  obtain ⟨⟨result₂, s₂⟩, h₂, h⟩ := Except.bind_eq_ok.mp h
  dsimp only at h
  split at h
  · rw [Except.pure_eq_ok] at h
    cases h
    obtain ⟨hcounted, hcomplete⟩ := finishPatterns_counted env hst fallback (start_sound hst h₁ h₂)
    refine hcounted.reconciled hcomplete ?_
    unfold finishPatterns
    exact Dict.get?_set_self _ _ _
  · exact absurd h Except.throw_ne_ok

/-! ## Which path -/

/-- The elements a loop over objects goes through are elements of a list. -/
lemma eq_arr_of_iter {v : Json} {items : List Json} {fields : Json.Fields}
    (h : v.iter = .ok items) (hmem : .obj fields ∈ items) : v = .arr items := by
  cases v with
  | arr xs =>
    cases h
    rfl
  | obj fs =>
    cases h
    obtain ⟨p, -, hp⟩ := List.mem_map.mp hmem
    cases hp
  | str s =>
    cases h
    obtain ⟨c, -, hc⟩ := List.mem_map.mp hmem
    cases hc
  | null | bool | int | float => cases h

lemma namesEvidence_of_groupFinding {claimed : List ℕ} {finding : Json} {out : Json × List ℕ}
    (h : groupFinding env st claimed finding = .ok out) (hev : hasEvidence finding = .ok true) :
    NamesEvidence finding := by
  obtain ⟨found, hfound, h⟩ := Except.bind_eq_ok.mp h
  rw [hev] at hfound
  cases hfound
  rw [if_pos rfl] at h
  split at h
  · rw [hasEvidence, Except.pure_eq_ok] at hev
    exact ⟨_, rfl, (Dict.contains_iff _ _).mp hev⟩
  · exact absurd h Except.throw_ne_ok

/-- A loop that succeeds finds evidence in objects only. -/
lemma groupFindings_evidence {claimed claimed' : List ℕ} {found found' : List Json}
    (h : groupFindings env st claimed found = .ok (found', claimed')) :
    ∀ f ∈ found, hasEvidence f = .ok true → NamesEvidence f := by
  induction found generalizing claimed found' with
  | nil => simp
  | cons f found ih =>
    rw [groupFindings] at h
    split at h
    · cases h
    · next f' claimed₁ hf =>
      split at h
      · cases h
      · next hrest =>
        cases h
        intro g hg hev
        rcases List.mem_cons.mp hg with rfl | hg
        · exact namesEvidence_of_groupFinding hf hev
        · exact ih hrest g hg hev

lemma foldlM_groupFinding_evidence {found : List Json} {s s' : Json × List ℕ}
    (h : found.foldlM (groupFinding env st ·.2 ·) s = .ok s') :
    ∀ f ∈ found, hasEvidence f = .ok true → NamesEvidence f := by
  induction found generalizing s with
  | nil => simp
  | cons f found ih =>
    rw [List.foldlM_cons] at h
    obtain ⟨s₁, hf, h⟩ := Except.bind_eq_ok.mp h
    intro g hg hev
    rcases List.mem_cons.mp hg with rfl | hg
    · exact namesEvidence_of_groupFinding hf hev
    · exact ih h g hg hev

/-- A group that is reconciled by entries has evidence in objects only, and the other one is left
alone. -/
lemma reconcileGroup_evidence {claimed claimed' : List ℕ} {result result' : Json.Fields}
    {name : PyStr} (h : reconcileGroup env st result claimed name = .ok (result', claimed')) :
    (∀ items, (result.getD name (.arr [])).iter = .ok items →
        ∀ f ∈ items, hasEvidence f = .ok true → NamesEvidence f) ∧
      ∀ other, other ≠ name → Dict.get? result' other = Dict.get? result other := by
  unfold reconcileGroup at h
  unfold Json.Fields.getD
  split at h
  · next hget =>
    cases h
    rw [hget]
    refine ⟨fun items hitems => ?_, fun _ _ => rfl⟩
    cases hitems
    simp
  · next items hget =>
    rw [hget]
    split at h
    · cases h
    · next hfound =>
      cases h
      refine ⟨fun items' hitems => ?_, fun other hne => Dict.get?_set_of_ne _ _ hne⟩
      cases hitems
      exact groupFindings_evidence hfound
  · next v _ hget =>
    rw [hget]
    split at h
    · cases h
    · next hfound =>
      cases h
      obtain ⟨items, hitems, hloop⟩ := Except.bind_eq_ok.mp hfound
      refine ⟨fun items' hitems' => ?_, fun _ _ => rfl⟩
      rw [Option.getD_some, hitems] at hitems'
      cases hitems'
      exact foldlM_groupFinding_evidence hloop

lemma exists_of_anyEvidence {found : List Json} (h : anyEvidence found = .ok true) :
    ∃ f ∈ found, hasEvidence f = .ok true := by
  induction found with
  | nil => cases h
  | cons f found ih =>
    obtain ⟨b, hb, h⟩ := Except.bind_eq_ok.mp h
    cases b with
    | true => exact ⟨f, List.mem_cons_self, hb⟩
    | false =>
      obtain ⟨g, hg, hev⟩ := ih h
      exact ⟨g, List.mem_cons_of_mem _ hg, hev⟩

lemma exists_of_iterGroups {result : Json.Fields} {names : List PyStr}
    (h : iterGroups result names = .ok true) :
    ∃ name ∈ names, ∃ items, (result.getD name (.arr [])).iter = .ok items ∧
      ∃ f ∈ items, hasEvidence f = .ok true := by
  induction names with
  | nil => cases h
  | cons name names ih =>
    obtain ⟨items, hitems, h⟩ := Except.bind_eq_ok.mp h
    obtain ⟨b, hb, h⟩ := Except.bind_eq_ok.mp h
    cases b with
    | true => exact ⟨name, List.mem_cons_self, items, hitems, exists_of_anyEvidence hb⟩
    | false =>
      obtain ⟨name', hname, hrest⟩ := ih h
      exact ⟨name', List.mem_cons_of_mem _ hname, hrest⟩

/-- Some finding names evidence when a result is reconciled by entries. -/
lemma exists_namesEvidence {result out : Json.Fields}
    (hgroups : iterGroups result groupNames = .ok true)
    (h : reconcileEntryGrouped env st result = .ok out) :
    ∃ f ∈ findings result, NamesEvidence f := by
  obtain ⟨⟨result₁, claimed₁⟩, h₁, h⟩ := Except.bind_eq_ok.mp h
  obtain ⟨⟨result₂, claimed₂⟩, h₂, -⟩ := Except.bind_eq_ok.mp h
  obtain ⟨hkey, hframe⟩ := reconcileGroup_evidence h₁
  obtain ⟨hsecondary, -⟩ := reconcileGroup_evidence h₂
  obtain ⟨name, hname, items, hitems, f, hf, hev⟩ := exists_of_iterGroups hgroups
  have hnames : NamesEvidence f := by
    simp only [groupNames, List.mem_cons, List.not_mem_nil, or_false] at hname
    rcases hname with rfl | rfl
    · exact hkey items hitems f hf hev
    · refine hsecondary items ?_ f hf hev
      rw [Json.Fields.getD, hframe (py "secondary_finds") (by decide)]
      exact hitems
  refine ⟨f, List.mem_flatMap.mpr ⟨name, hname, ?_⟩, hnames⟩
  obtain ⟨fields, rfl, -⟩ := hnames
  have harr := eq_arr_of_iter hitems hf
  unfold Json.Fields.getD at harr
  unfold groupItems Json.Fields.get Json.Fields.getD
  cases hget : Dict.get? result name with
  | none =>
    rw [hget] at harr
    cases harr
    cases hf
  | some v =>
    rw [hget] at harr
    rw [Option.getD_some] at harr ⊢
    rw [harr]
    exact hf

/-- A result none of whose findings names evidence is reconciled by patterns. -/
lemma reconcilePatterns_of_reconcileResult {result out left : Json.Fields}
    (hev : ∀ f ∈ findings result, ¬ NamesEvidence f)
    (h : reconcileResult env st fallback result = .ok (out, left)) :
    reconcilePatterns env st fallback result = .ok (out, left) := by
  unfold reconcileResult at h
  split at h
  · cases h
  · next hgroups =>
    obtain ⟨out', hout, -⟩ := Except.bind_eq_ok.mp h
    obtain ⟨f, hf, hnames⟩ := exists_namesEvidence hgroups hout
    exact absurd hnames (hev f hf)
  · exact h

/-! ## Conservation -/

/-- The number of findings with a pattern. -/
def holders (result : Json.Fields) (id : PyStr) : ℕ :=
  (findings result).countP fun f => decide (id ∈ patternIdsOf f)

section Conservation

variable {result : Json.Fields}

/-- The patterns of a finding that is not quantified. -/
lemma patternIdsOf_unquantified {f : Json} (h : isQuantified f = false) :
    patternIdsOf f = [py "unquantified"] := by
  cases f with
  | obj fields =>
    have hmarker := isUnquantified_iff.mp
      (show isUnquantified (Json.Fields.get fields (py "pattern_ids")) = true by
        simpa [isQuantified] using h)
    rw [patternIdsOf, idsOf, hmarker]
    rfl
  | null | bool | int | float | str | arr => cases h

/-- Findings with a pattern are quantified. -/
lemma holders_eq {id : PyStr} (hid : id ≠ py "unquantified") :
    holders result id =
      ((findings result).filter isQuantified).countP fun f => decide (id ∈ patternIdsOf f) := by
  rw [holders, List.countP_filter]
  refine List.countP_congr fun f _ => ?_
  cases hq : isQuantified f with
  | true => simp
  | false => simp [patternIdsOf_unquantified hq, hid]

lemma Reconciled.holders_le (h : Reconciled st result) {id : PyStr}
    (hid : id ≠ py "unquantified") : holders result id ≤ 1 := by
  rw [holders_eq hid]
  have hapart := h.apart
  generalize (findings result).filter isQuantified = found at hapart ⊢
  induction hapart with
  | nil => simp
  | @cons f found hf _ ih =>
    by_cases hmem : id ∈ patternIdsOf f
    · have hnone : found.countP (fun g => decide (id ∈ patternIdsOf g)) = 0 := by
        refine List.countP_eq_zero.mpr fun g hg => ?_
        simpa using fun hg' => hf g hg id hmem id hg' (.inl rfl)
      rw [List.countP_cons_of_pos (by simpa using hmem), hnone]
    · rw [List.countP_cons_of_neg (by simpa using hmem)]
      exact ih

lemma one_le_holders {id : PyStr}
    (hid : id ∈ claimedIds (findings result)) : 1 ≤ holders result id := by
  obtain ⟨f, hf, hid⟩ := List.mem_flatMap.mp hid
  exact List.countP_pos_iff.mpr ⟨f, (List.mem_filter.mp hf).1, by simpa using hid⟩

/-- The claimed patterns are claimed once. -/
lemma Reconciled.nodup_claimedIds (h : Reconciled st result) :
    (claimedIds (findings result)).Nodup := by
  refine List.nodup_flatMap.mpr ⟨fun f hf => ?_, ?_⟩
  · obtain ⟨hf, hq⟩ := List.mem_filter.mp hf
    exact h.own f hf hq
  · exact h.apart.imp fun hapart id hid hid' => hapart id hid id hid' (.inl rfl)

/-- The count of a quantified finding. -/
lemma Reconciled.count (h : Reconciled st result) {f : Json} (hf : f ∈ findings result)
    (hq : isQuantified f = true) : field f "count" = .int (countOf st (patternIdsOf f)) := by
  obtain ⟨fields, rfl, hsettled⟩ := h.settled f hf
  exact count_of_settled hsettled (by simpa [isQuantified] using hq)

/-- The counts of the quantified findings are those of the claimed patterns. -/
lemma Reconciled.sum_count (h : Reconciled st result) :
    (((findings result).filter isQuantified).map countField).sum =
      (countOf st (claimedIds (findings result)) : ℤ) := by
  have hcount : ∀ f ∈ (findings result).filter isQuantified,
      countField f = (countOf st (patternIdsOf f) : ℤ) := by
    intro f hf
    obtain ⟨hf, hq⟩ := List.mem_filter.mp hf
    rw [countField, h.count hf hq]
    rfl
  rw [List.map_congr_left hcount, claimedIds, countOf_flatMap]
  generalize (findings result).filter isQuantified = found
  induction found with
  | nil => rfl
  | cons f found ih => rw [List.map_cons, List.sum_cons, ih, List.map_cons, List.sum_cons,
      Nat.cast_add]

/-- When nobody has claimed `other`, all other patterns are claimed. -/
lemma Reconciled.countOf_claimedIds (hst : st.WellFormed) (h : Reconciled st result)
    (hother : py "other" ∉ claimedIds (findings result)) :
    countOf st (claimedIds (findings result)) + patternCount st (py "other") =
      st.totalEntries := by
  have hmem : ∀ id, id ∈ patternIds st ↔
      id ∈ claimedIds (findings result) ∨ (id = py "other" ∧ id ∈ patternIds st) := by
    intro id
    constructor
    · intro hid
      by_cases hne : id = py "other"
      · exact .inr ⟨hne, hid⟩
      · obtain ⟨p, hp, rfl⟩ := List.mem_map.mp hid
        exact .inl (h.complete p (List.mem_filter.mpr ⟨hp, by simpa using hne⟩))
    · rintro (hid | ⟨-, hid⟩)
      · obtain ⟨f, hf, hid⟩ := List.mem_flatMap.mp hid
        obtain ⟨hf, hq⟩ := List.mem_filter.mp hf
        exact h.known f hf hq id hid
      · exact hid
  have hnodup := h.nodup_claimedIds
  have hids : (patternIds st).Nodup := hst.patternIds
  by_cases hlisted : py "other" ∈ patternIds st
  · have hperm : (claimedIds (findings result) ++ [py "other"]).Perm (patternIds st) := by
      refine (List.perm_ext_iff_of_nodup ?_ hids).mpr fun id => ?_
      · refine List.nodup_append.mpr ⟨hnodup, List.nodup_singleton _, ?_⟩
        rintro a ha b hb rfl
        exact hother (List.mem_singleton.mp hb ▸ ha)
      · rw [List.mem_append, List.mem_singleton, hmem id]
        refine or_congr_right ⟨?_, fun hid => hid.1⟩
        rintro rfl
        exact ⟨rfl, hlisted⟩
    have hsingle : countOf st [py "other"] = patternCount st (py "other") := by
      simp [countOf]
    rw [← countOf_patternIds hst, ← countOf_perm hperm, countOf_append, hsingle]
  · have hperm : (claimedIds (findings result)).Perm (patternIds st) := by
      refine (List.perm_ext_iff_of_nodup hnodup hids).mpr fun id => ?_
      rw [hmem id]
      refine ⟨.inl, fun hid => hid.elim (fun hid => hid) fun hid => ?_⟩
      exact absurd (hid.1 ▸ hid.2) hlisted
    have hzero : patternCount st (py "other") = 0 := by
      have hnone : Dict.get? (patternById st) (py "other") = none := by
        rw [Dict.get?_eq_none_iff, keys_patternById hst]
        exact hlisted
      rw [patternCount, hnone]
      rfl
    rw [hzero, Nat.add_zero, countOf_perm hperm, countOf_patternIds hst]

/-- **Reconciliation by patterns conserves patterns and counts.** For every log, in both modes and
for every model result none of whose findings names evidence, if reconciliation succeeds then every
pattern of the manifest but `other` is in exactly one finding of its result, no pattern is in two,
nor twice in one, every quantified finding counts its patterns, and the counts add up to the
entries, less those of `other` when nobody has claimed it. -/
theorem reconcileResult_conserves_patterns (env : Env) (logText : PyStr) (st : Statistics)
    (hst : preprocessLog env logText = .ok st) (fallback : Bool) (result out left : Json.Fields)
    (hev : ∀ f ∈ findings result, ¬ NamesEvidence f)
    (h : reconcileResult env st fallback result = .ok (out, left)) :
    (∀ p ∈ st.patternManifest, p.id ≠ py "other" → holders out p.id = 1) ∧
      (∀ id, id ≠ py "unquantified" → holders out id ≤ 1) ∧
      (∀ f ∈ findings out, isQuantified f = true → (patternIdsOf f).Nodup ∧
        field f "count" = .int (countOf st (patternIdsOf f))) ∧
      (holders out (py "other") = 0 →
        (((findings out).filter isQuantified).map countField).sum =
          (st.totalEntries : ℤ) - patternCount st (py "other")) := by
  have hwf := preprocessLog_wellFormed hst
  have hrec := reconcilePatterns_reconciled hwf (reconcilePatterns_of_reconcileResult hev h)
  refine ⟨fun p hp hne => ?_, fun id hid => hrec.holders_le hid, fun f hf hq =>
    ⟨hrec.own f hf hq, hrec.count hf hq⟩, fun hnone => ?_⟩
  · have hle := hrec.holders_le (hwf.patternNamed p hp)
    have hge := one_le_holders
      (hrec.complete p (List.mem_filter.mpr ⟨hp, by simpa using hne⟩))
    omega
  · have hother : py "other" ∉ claimedIds (findings out) := by
      intro hmem
      have := one_le_holders hmem
      omega
    have hcount := hrec.countOf_claimedIds hwf hother
    rw [hrec.sum_count]
    omega

/-- A result whose only finding names the first pattern of `sampleLog`. -/
def sampleNamed : Json.Fields :=
  [(py "key_finds", .arr [.obj
    [(py "id", literal "f1"), (py "pattern_ids", .arr [literal "p-8c96d76f6202"])]])]

/-- `reconcileResult_conserves_patterns` speaks about `sampleNamed`. -/
theorem sampleNamed_conserves_patterns :
    ∃ st out left, preprocessLog sampleEnv sampleLog = .ok st ∧
      reconcileResult sampleEnv st true sampleNamed = .ok (out, left) ∧
      ∀ p ∈ st.patternManifest, p.id ≠ py "other" → holders out p.id = 1 := by
  obtain ⟨st, out, left, hst, h, -⟩ := exists_run sampleEnv sampleLog true sampleNamed
    (fun _ _ => true) (by decide +kernel)
  refine ⟨st, out, left, hst, h, ?_⟩
  refine (reconcileResult_conserves_patterns sampleEnv sampleLog st hst true sampleNamed out
    left ?_ h).1
  rintro f hf ⟨fields, rfl, hkey⟩
  simp [findings, groupNames, sampleNamed, groupItems, Json.Fields.get, Json.Fields.getD,
    Dict.get?_cons] at hf
  rw [hf] at hkey
  exact absurd hkey (by decide)

end Conservation

end Triage
