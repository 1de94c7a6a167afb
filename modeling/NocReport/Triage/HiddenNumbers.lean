import NocReport.Triage.PatternMerging

set_option relaxedAutoImplicit false
set_option autoImplicit false

/-!
# Reconciliation by patterns with numbers hidden

What follows the first loop does not look at the numbers of an audit that a finding may carry
besides its count. Every step takes findings with these numbers hidden to what it makes of the
findings with the numbers hidden, and it leaves the numbers themselves alone.

## Main definitions

* `Triage.auditKeys`, `Triage.resultKeys` — the fields that are hidden in findings and in results.
* `Triage.Work.hide` — the findings and dictionaries with these fields hidden.
* `Triage.Work.audit` — the hidden fields.
* `Triage.Edits` — what the steps do to the findings.

## Main results

* `Triage.finishBody_hide` — the steps do not depend on what is hidden.
* `Triage.finishBody_edits` — the steps in these terms.
* `Triage.finishBody_frame` — the steps do not change what is hidden.
-/

namespace Triage

/-- The counts of a finding that reconciliation by patterns does not set. -/
def auditKeys : List PyStr := ["physical_entry_count", "occurrence_count"].map py

/-- The fields of a result that reconciliation sets. -/
def resultKeys : List PyStr := ["total_entries", "key_finds", "secondary_finds"].map py

/-- The finding without its audit counts. -/
abbrev hideAudit (finding : Json.Fields) : Json.Fields := Dict.hide auditKeys .null finding

/-- The dictionary without what reconciliation sets. -/
def Doc.hide (doc : Doc) : Doc := { doc with fields := Dict.hide resultKeys (.arr []) doc.fields }

namespace Work

/-- The findings without their audit counts, and the dictionaries without what is set. -/
def hide (w : Work) : Work where
  heap := fun r => hideAudit (w.heap r)
  next := w.next
  doc := w.doc.hide
  argument := w.argument.map Doc.hide

/-- The audit counts of the findings. -/
def audit (w : Work) (r : Ref) : Json.Fields := Dict.only auditKeys (w.heap r)

end Work

/-! ## What is read is not hidden -/

section Read

variable (w : Work) (r : Ref)

lemma get_hideAudit {key : String} (h : py key ∉ auditKeys) (f : Json.Fields) :
    Json.Fields.get (hideAudit f) (py key) = Json.Fields.get f (py key) := by
  rw [Json.Fields.get, Json.Fields.getD, Dict.get?_hide_of_notMem h]
  rfl

@[simp] lemma heap_hide : w.hide.heap r = hideAudit (w.heap r) := rfl

@[simp] lemma keyFinds_hide : w.hide.doc.keyFinds = w.doc.keyFinds := rfl

@[simp] lemma secondaryFinds_hide : w.hide.doc.secondaryFinds = w.doc.secondaryFinds := rfl

@[simp] lemma refs_hide : w.hide.doc.refs = w.doc.refs := rfl

@[simp] lemma next_hide : w.hide.next = w.next := rfl

@[simp] lemma ids_hide : w.hide.ids = w.ids := by
  funext r
  rw [Work.ids, Work.ids, idsOf, idsOf, heap_hide, get_hideAudit (by decide)]

@[simp] lemma quantified_hide : w.hide.quantified = w.quantified := by
  funext r
  rw [Work.quantified, Work.quantified, heap_hide, get_hideAudit (by decide)]

@[simp] lemma items_hide : w.hide.items = w.items := by
  simp [Work.items]

@[simp] lemma iterable_hide : w.hide.iterable = w.iterable := by
  funext r
  rw [Work.iterable, Work.iterable, heap_hide, Dict.get?_hide_of_notMem (by decide)]

@[simp] lemma usedIds_hide : usedIds w.hide = usedIds w := by
  simp [usedIds]

end Read

/-! ## What is written -/

section Write

variable (w : Work) (r : Ref)

lemma hide_write (f : Json.Fields) : (w.write r f).hide = w.hide.write r (hideAudit f) := by
  simp only [Work.hide, Work.write]
  congr 1
  funext r'
  by_cases hr : r' = r
  · simp [hr]
  · simp [hr]

lemma hide_setIds (ids : List PyStr) : (w.setIds r ids).hide = w.hide.setIds r ids := by
  rw [Work.setIds, hide_write, hideAudit, Dict.hide_set_of_notMem (by decide)]
  rfl

lemma hideAudit_setCount (st : Statistics) (f : Json.Fields) (n : ℕ) :
    hideAudit (setCount st f n) = setCount st (hideAudit f) n := by
  rw [setCount, hideAudit, Dict.hide_set_of_notMem (by decide), Dict.hide_set_of_notMem (by decide)]
  rfl

lemma hide_rebind (keyFinds secondaryFinds : List Ref) :
    (w.rebind keyFinds secondaryFinds).hide = w.hide.rebind keyFinds secondaryFinds := by
  have hfields : Dict.hide resultKeys (.arr [])
      ([(py "key_finds", .arr []), (py "secondary_finds", .arr [])] ++
        w.doc.fields.filter fun p => p.1 ≠ py "key_finds" ∧ p.1 ≠ py "secondary_finds") =
      [(py "key_finds", .arr []), (py "secondary_finds", .arr [])] ++
        (Dict.hide resultKeys (.arr []) w.doc.fields).filter fun p =>
          p.1 ≠ py "key_finds" ∧ p.1 ≠ py "secondary_finds" := by
    rw [← Dict.hide_filter fun k => decide (k ≠ py "key_finds" ∧ k ≠ py "secondary_finds")]
    simp [Dict.hide, resultKeys]
  have hargument : (some (w.argument.getD w.doc)).map Doc.hide =
      some ((w.argument.map Doc.hide).getD w.doc.hide) := by
    cases w.argument <;> rfl
  simp only [Work.rebind, Work.hide, Doc.hide, hfields, hargument]

/-- A loop that hiding commutes with at every turn. -/
lemma foldl_hide {α : Type} {f : Work → α → Work} (hf : ∀ w x, f w.hide x = (f w x).hide)
    (xs : List α) : xs.foldl f w.hide = (xs.foldl f w).hide := by
  induction xs generalizing w with
  | nil => rfl
  | cons x xs ih => rw [List.foldl_cons, List.foldl_cons, hf, ih]

end Write

/-! ## The steps -/

section Steps

variable (env : Env) (st : Statistics) (w : Work)

lemma primaryOf_hide (component : List Ref) :
    primaryOf w.hide component = primaryOf w component := rfl

lemma mergeComponent_hide (component : List Ref) :
    mergeComponent w.hide component = (mergeComponent w component).hide := by
  rw [mergeComponent, mergeComponent, primaryOf_hide, ids_hide]
  cases primaryOf w component with
  | none => rfl
  | some r => exact (hide_setIds w r _).symm

lemma components_hide : components env st w.hide = components env st w := by
  simp [components]

lemma mergeFamilies_hide : mergeFamilies env st w.hide = (mergeFamilies env st w).hide := by
  unfold mergeFamilies
  rw [components_hide]
  dsimp only
  split
  · rw [foldl_hide w mergeComponent_hide, quantified_hide, hide_rebind]
    rfl
  · rfl

lemma signatures_hideAudit (f : Json.Fields) : signatures env (hideAudit f) = signatures env f := by
  simp only [signatures]
  refine List.filterMap_congr fun key hkey => ?_
  have hnot : ∀ key ∈ ["detail_en", "detail_zh"], py key ∉ auditKeys := by decide
  rw [get_hideAudit (hnot key hkey)]

lemma duplicates_hide (refs : List Ref) : duplicates env w.hide refs = duplicates env w refs := by
  simp only [duplicates, heap_hide, signatures_hideAudit]

lemma mergeDuplicate_hide (p : Ref × Ref) :
    mergeDuplicate w.hide p = (mergeDuplicate w p).hide := by
  rw [mergeDuplicate, mergeDuplicate, ids_hide, hide_setIds]

lemma mergeDuplicates_hide : mergeDuplicates env w.hide = (mergeDuplicates env w).hide := by
  unfold mergeDuplicates
  rw [duplicates_hide, items_hide]
  dsimp only
  split
  · rfl
  · rw [foldl_hide w mergeDuplicate_hide, hide_rebind]
    rfl

lemma recount_hide : recount st w.hide = (recount st w).hide := by
  rw [recount, recount, items_hide]
  refine foldl_hide w (fun w r => ?_) w.items
  rw [recountFinding, recountFinding, ids_hide, heap_hide, hide_write, hideAudit_setCount]

lemma findingText_hideAudit (f : Json.Fields) :
    findingText env (hideAudit f) = findingText env f := by
  have hnot : ∀ key ∈ ["label_en", "detail_en", "label_zh", "detail_zh"],
      py key ∉ auditKeys := by decide
  rw [findingText, findingText]
  congr 2
  refine List.map_congr_left fun key hkey => ?_
  rw [Json.Fields.getD, Dict.get?_hide_of_notMem (hnot key hkey), Json.Fields.getD]

/-- The state of the loop over the unquantified findings without what is hidden. -/
def Repaired.hide (s : Repaired) : Repaired := { s with work := s.work.hide }

lemma repairFinding_hide (s : Repaired) (r : Ref) :
    repairFinding env st s.hide r = (repairFinding env st s r).hide := by
  obtain ⟨work, used, removed⟩ := s
  rw [show Repaired.hide ⟨work, used, removed⟩ = ⟨work.hide, used, removed⟩ from rfl]
  unfold repairFinding
  dsimp only
  rw [heap_hide, findingText_hideAudit]
  cases matchingFamilies env st (findingText env (work.heap r)) with
  | nil => rfl
  | cons family rest =>
    cases rest with
    | cons => rfl
    | nil =>
      dsimp only
      by_cases hused : used.contains family = true
      · rw [if_pos hused, if_pos hused]
        rfl
      · rw [if_neg hused, if_neg hused]
        cases memberIds st family with
        | nil => rfl
        | cons id ids =>
          dsimp only [Repaired.hide]
          rw [hide_write, hideAudit_setCount, ← heap_hide, hide_setIds]

lemma foldl_repairFinding_hide (s : Repaired) (refs : List Ref) :
    refs.foldl (repairFinding env st) s.hide = (refs.foldl (repairFinding env st) s).hide := by
  induction refs generalizing s with
  | nil => rfl
  | cons r refs ih => rw [List.foldl_cons, List.foldl_cons, repairFinding_hide, ih]

lemma repairUnquantified_hide :
    repairUnquantified env st w.hide = (repairUnquantified env st w).hide := by
  unfold repairUnquantified
  have hstart : (⟨w.hide, (usedIds w.hide).filterMap (Dict.get? (familyByPattern st)), []⟩ :
      Repaired) =
      Repaired.hide ⟨w, (usedIds w).filterMap (Dict.get? (familyByPattern st)), []⟩ := by
    rw [usedIds_hide]
    rfl
  dsimp only
  rw [hstart, refs_hide, quantified_hide, foldl_repairFinding_hide]
  rfl

lemma existingByFamily_hide : existingByFamily st w.hide = existingByFamily st w := by
  simp [existingByFamily]

lemma hideAudit_familyFinding (kind : String) (family : PyStr) (item : Pattern)
    (ids : List PyStr) (count : ℕ) (detailEn detailZh : PyStr) :
    hideAudit (familyFinding st kind family item ids count detailEn detailZh) =
      familyFinding st kind family item ids count detailEn detailZh := by
  simp [hideAudit, familyFinding, Dict.hide, auditKeys]

lemma appendFamily_hide (existing : Dict PyStr Ref) (group : PyStr × List Pattern) :
    appendFamily env st existing w.hide group = (appendFamily env st existing w group).hide := by
  obtain ⟨family, items⟩ := group
  unfold appendFamily
  dsimp only
  cases Dict.get? existing family with
  | some r =>
    dsimp only
    rw [hide_write, hide_setIds, hideAudit_setCount, ← heap_hide, hide_setIds, ids_hide]
  | none =>
    cases items with
    | nil => rfl
    | cons item items =>
      dsimp only
      rw [← hideAudit_familyFinding, next_hide, ← hide_write]
      rfl

lemma appendOmitted_hide : appendOmitted env st w.hide = (appendOmitted env st w).hide := by
  rw [appendOmitted, appendOmitted, existingByFamily_hide, usedIds_hide]
  exact foldl_hide w (fun w group => appendFamily_hide env st w _ group) _

lemma promote_hide : promote st w.hide = (promote st w).hide := by
  unfold promote
  rw [keyFinds_hide, secondaryFinds_hide]
  cases w.doc.keyFinds with
  | cons => rfl
  | nil =>
    cases w.doc.secondaryFinds with
    | cons => rfl
    | nil =>
      cases (namedPatterns st).head? with
      | none => rfl
      | some item =>
        dsimp only
        rw [← hideAudit_familyFinding, next_hide, ← hide_write]
        rfl

/-- What follows the first loop, up to the total of the entries. -/
def finishBody (fallback : Bool) : Work :=
  let w := mergeFamilies env st w
  let w := if fallback then mergeDuplicates env w else w
  let w := recount st w
  let w := if fallback then repairUnquantified env st w else w
  let w := appendOmitted env st w
  if fallback then promote st w else w

lemma finishPatterns_eq (fallback : Bool) :
    finishPatterns env st fallback w =
      { finishBody env st w fallback with doc := { (finishBody env st w fallback).doc with
        fields := Dict.set (finishBody env st w fallback).doc.fields (py "total_entries")
          (.int st.totalEntries) } } := rfl

/-- **The steps do not depend on what is hidden.** -/
theorem finishBody_hide (fallback : Bool) :
    finishBody env st w.hide fallback = (finishBody env st w fallback).hide := by
  cases fallback with
  | true =>
    simp only [finishBody, if_true, mergeFamilies_hide, mergeDuplicates_hide, recount_hide,
      repairUnquantified_hide, appendOmitted_hide, promote_hide]
  | false =>
    simp only [finishBody, Bool.false_eq_true, if_false, mergeFamilies_hide, recount_hide,
      appendOmitted_hide]

end Steps

/-! ## What the steps do -/

/-- What the steps do: they set the patterns and the count of a finding, add a finding for a family,
and bind other lists of findings. -/
inductive Edits (st : Statistics) : Work → Work → Prop
  | refl (w : Work) : Edits st w w
  | trans {w w' w'' : Work} (h : Edits st w w') (h' : Edits st w' w'') : Edits st w w''
  | setIds (w : Work) (r : Ref) (ids : List PyStr) : Edits st w (w.setIds r ids)
  | setCount (w : Work) (r : Ref) (n : ℕ) : Edits st w (w.write r (setCount st (w.heap r) n))
  | rebind (w : Work) (keyFinds secondaryFinds : List Ref) :
      Edits st w (w.rebind keyFinds secondaryFinds)
  | regroup (w : Work) (keyFinds secondaryFinds : List Ref) :
      Edits st w { w with doc := ⟨w.doc.fields, keyFinds, secondaryFinds⟩ }
  | allocate (w : Work) (kind : String) (family : PyStr) (item : Pattern) (ids : List PyStr)
      (count : ℕ) (detailEn detailZh : PyStr) (keyFinds secondaryFinds : List Ref) :
      Edits st w ⟨(w.write w.next
          (familyFinding st kind family item ids count detailEn detailZh)).heap, w.next + 1,
        ⟨w.doc.fields, keyFinds, secondaryFinds⟩, w.argument⟩

section Edits

lemma Edits.foldl {st : Statistics} {α : Type} {f : Work → α → Work}
    (hf : ∀ w x, Edits st w (f w x)) (w : Work) (xs : List α) : Edits st w (xs.foldl f w) := by
  induction xs generalizing w with
  | nil => exact .refl w
  | cons x xs ih => exact (hf w x).trans (ih (f w x))

variable (env : Env) (st : Statistics) (w : Work)

lemma mergeFamilies_edits : Edits st w (mergeFamilies env st w) := by
  have hcomponent : ∀ w component, Edits st w (mergeComponent w component) := by
    intro w component
    rw [mergeComponent]
    cases primaryOf w component with
    | none => exact .refl w
    | some r => exact .setIds w r _
  unfold mergeFamilies
  dsimp only
  split
  · exact (Edits.foldl hcomponent w _).trans (.rebind _ _ _)
  · exact .refl w

lemma mergeDuplicates_edits : Edits st w (mergeDuplicates env w) := by
  unfold mergeDuplicates
  dsimp only
  split
  · exact .refl w
  · have hmerge : ∀ w p, Edits st w (mergeDuplicate w p) := fun w p => .setIds w p.2 _
    exact (Edits.foldl hmerge w _).trans (.rebind _ _ _)

lemma recount_edits : Edits st w (recount st w) :=
  Edits.foldl (fun w r => .setCount w r _) w _

lemma repairFinding_edits (s : Repaired) (r : Ref) :
    Edits st s.work (repairFinding env st s r).work := by
  unfold repairFinding
  split
  · split
    · exact .refl _
    · split
      · exact .refl _
      · exact (Edits.setIds _ _ _).trans (.setCount _ _ _)
  · exact .refl _

lemma foldl_repairFinding_edits (s : Repaired) (refs : List Ref) :
    Edits st s.work (refs.foldl (repairFinding env st) s).work := by
  induction refs generalizing s with
  | nil => exact .refl _
  | cons r refs ih => exact (repairFinding_edits env st s r).trans (ih _)

lemma repairUnquantified_edits : Edits st w (repairUnquantified env st w) := by
  have hloop := foldl_repairFinding_edits env st
    ⟨w, (usedIds w).filterMap (Dict.get? (familyByPattern st)), []⟩
    (w.doc.refs.filter fun r => !w.quantified r)
  exact hloop.trans (.regroup _ _ _)

lemma appendFamily_edits (existing : Dict PyStr Ref) (group : PyStr × List Pattern) :
    Edits st w (appendFamily env st existing w group) := by
  obtain ⟨family, items⟩ := group
  unfold appendFamily
  dsimp only
  split
  · exact (Edits.setIds _ _ _).trans (.setCount _ _ _)
  · split
    · exact .refl w
    · exact .allocate w "unlabeled-" _ _ _ _ _ _ _ _

lemma appendOmitted_edits : Edits st w (appendOmitted env st w) :=
  Edits.foldl (fun w group => appendFamily_edits env st w _ group) w _

lemma promote_edits : Edits st w (promote st w) := by
  unfold promote
  split
  · exact .regroup w _ _
  · split
    · exact .allocate w "fallback-" _ _ _ _ _ _ _ _
    · exact .refl w
  · exact .refl w

/-- **What the steps do.** -/
theorem finishBody_edits (fallback : Bool) : Edits st w (finishBody env st w fallback) := by
  have hmerged := mergeFamilies_edits env st w
  unfold finishBody
  dsimp only
  generalize mergeFamilies env st w = w₁ at hmerged ⊢
  cases fallback with
  | true =>
    simp only [if_true]
    have hcounted := (hmerged.trans (mergeDuplicates_edits env st w₁)).trans (recount_edits st _)
    have hrepaired := hcounted.trans (repairUnquantified_edits env st _)
    exact (hrepaired.trans (appendOmitted_edits env st _)).trans (promote_edits st _)
  | false =>
    simp only [Bool.false_eq_true, if_false]
    have hcounted := hmerged.trans (recount_edits st w₁)
    exact hcounted.trans (appendOmitted_edits env st _)

end Edits

/-! ## What the steps leave alone -/

/-- What every step keeps: the audit counts, the references in use, and that a dictionary has each
key once. -/
structure Frame (w w' : Work) : Prop where
  audit : w'.audit = w.audit
  next : w.next ≤ w'.next
  unique : (Dict.keys w.doc.fields).Nodup → (Dict.keys w'.doc.fields).Nodup

/-- The references that are not in use carry no audit counts. -/
def Fresh (w : Work) : Prop := ∀ r, w.next ≤ r → w.audit r = []

namespace Frame

variable {w w' w'' : Work}

lemma refl (w : Work) : Frame w w := ⟨rfl, Nat.le_refl _, id⟩

lemma trans (h : Frame w w') (h' : Frame w' w'') : Frame w w'' where
  audit := h'.audit.trans h.audit
  next := Nat.le_trans h.next h'.next
  unique := fun hw => h'.unique (h.unique hw)

lemma fresh (h : Frame w w') (hw : Fresh w) : Fresh w' := by
  intro r hr
  rw [h.audit]
  exact hw r (Nat.le_trans h.next hr)

/-- A finding that is replaced by one with the same audit counts. -/
lemma write {r : Ref} {f : Json.Fields} (h : Dict.only auditKeys f = w.audit r) :
    Frame w (w.write r f) := by
  refine ⟨?_, Nat.le_refl _, id⟩
  funext r'
  by_cases hr : r' = r
  · subst hr
    simpa [Work.audit] using h
  · simp [Work.audit, hr]

lemma setIds (w : Work) (r : Ref) (ids : List PyStr) : Frame w (w.setIds r ids) :=
  write (Dict.only_set_of_notMem (by decide) _ _)

lemma setCount (st : Statistics) (w : Work) (r : Ref) (n : ℕ) :
    Frame w (w.write r (setCount st (w.heap r) n)) := by
  refine write ?_
  rw [Triage.setCount, Dict.only_set_of_notMem (by decide), Dict.only_set_of_notMem (by decide)]
  rfl

lemma rebind (w : Work) (keyFinds secondaryFinds : List Ref) :
    Frame w (w.rebind keyFinds secondaryFinds) := by
  refine ⟨rfl, Nat.le_refl _, fun hw => ?_⟩
  have hkeys : (Dict.keys (w.doc.fields.filter fun p =>
      p.1 ≠ py "key_finds" ∧ p.1 ≠ py "secondary_finds")).Nodup :=
    hw.sublist (List.Sublist.map _ List.filter_sublist)
  simp only [Work.rebind, Dict.keys, List.map_cons, List.cons_append, List.nil_append,
    List.nodup_cons]
  refine ⟨?_, ?_, hkeys⟩
  · simp
  · simp

/-- A new finding without audit counts. -/
lemma allocate {f : Json.Fields} (hw : Fresh w) (hf : Dict.only auditKeys f = [])
    (keyFinds secondaryFinds : List Ref) (argument : Option Doc) :
    Frame w ⟨(w.write w.next f).heap, w.next + 1, ⟨w.doc.fields, keyFinds, secondaryFinds⟩,
      argument⟩ := by
  have hwrite : Frame w (w.write w.next f) := write (hf.trans (hw w.next (Nat.le_refl _)).symm)
  exact ⟨hwrite.audit, Nat.le_succ _, id⟩

end Frame

section Frames

variable {env : Env} {st : Statistics} {w w' : Work}

lemma only_familyFinding (kind : String) (family : PyStr) (item : Pattern) (ids : List PyStr)
    (count : ℕ) (detailEn detailZh : PyStr) :
    Dict.only auditKeys (familyFinding st kind family item ids count detailEn detailZh) = [] := by
  simp [Dict.only, familyFinding, auditKeys]

lemma Edits.frame (h : Edits st w w') (hw : Fresh w) : Frame w w' := by
  induction h with
  | refl w => exact .refl w
  | trans _ _ ih ih' =>
    have hfirst := ih hw
    exact hfirst.trans (ih' (hfirst.fresh hw))
  | setIds w r ids => exact .setIds w r ids
  | setCount w r n => exact .setCount st w r n
  | rebind w keyFinds secondaryFinds => exact .rebind w keyFinds secondaryFinds
  | regroup => exact ⟨rfl, Nat.le_refl _, id⟩
  | allocate => exact .allocate hw (only_familyFinding _ _ _ _ _ _ _) _ _ _

/-- **The steps do not change what is hidden.** -/
theorem finishBody_frame (env : Env) (st : Statistics) (w : Work) (fallback : Bool)
    (hw : Fresh w) : Frame w (finishBody env st w fallback) :=
  (finishBody_edits env st w fallback).frame hw

end Frames

end Triage
