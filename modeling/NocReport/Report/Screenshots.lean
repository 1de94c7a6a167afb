import NocReport.Report.Links
import NocReport.Report.Preview

set_option relaxedAutoImplicit false
set_option autoImplicit false

/-!
# The screenshots of the DOCX and of the preview

A composed document is rendered as a DOCX and serialised for the browser. The DOCX shows nothing
of what is inside an analysis reference that is marked unavailable; the preview serialises the
children of every analysis reference. Composition puts nothing inside an unavailable analysis, but
the presentation that a stored result brings may.

## Main definitions

* `Report.Screenshot.key` — which stored image a screenshot is.
* `Report.SameScreenshots` — the DOCX and the preview show the same images, each as often.
* `Report.Block.hidden` — the screenshots that the DOCX does not show of a block.

## Main results

* `Report.blockPictures_eq_iff` — the DOCX shows all screenshots of some blocks exactly when none is
  hidden.
* `Report.composeReport_sameScreenshots_iff` — the DOCX and the preview of a composed document show
  the same screenshots exactly when the presentations of the analyses hide none.
* `Report.composeReport_not_sameScreenshots` — not those of all composed documents do.
-/

namespace Report

variable {env : Env}

/-! ## Stored images -/

/-- Which stored image a screenshot is. -/
def Screenshot.key (shot : Screenshot) : Json × Json × Json :=
  (shot.bucket, shot.objectKey, shot.versionId)

/-- Which stored image an entry of the private list is; a missing version is none. -/
def referenceKey (entry : Json.Fields) : Json × Json × Json :=
  (entry.get (py "bucket"), entry.get (py "object_key"), entry.get (py "version_id"))

/-- **The DOCX and the preview show the same screenshots**, each as often. -/
def SameScreenshots (docx : Docx) (doc : ReportDocument) : Prop :=
  (docx.pictures.map Screenshot.key).Perm ((documentToPreviewJson doc).2.map referenceKey)

/-- A field that is left out because it is null reads as null. -/
lemma get_filter_isNull {fields : Json.Fields} (h : (Dict.keys fields).Nodup) (k : PyStr) :
    Json.Fields.get (fields.filter fun p => !p.2.isNull) k = fields.get k := by
  unfold Json.Fields.get Json.Fields.getD
  induction fields with
  | nil => rfl
  | cons p fields ih =>
    obtain ⟨i, v⟩ := p
    have hkeys : (i :: Dict.keys fields).Nodup := h
    obtain ⟨hi, hrest⟩ := List.nodup_cons.mp hkeys
    cases hv : v.isNull with
    | true =>
      obtain rfl : v = .null := by cases v <;> first | rfl | cases hv
      rw [List.filter_cons_of_neg (by simp [Json.isNull]), ih hrest, Dict.get?_cons]
      split
      · next heq =>
        subst heq
        rw [(Dict.get?_eq_none_iff _ _).mpr hi]
        rfl
      · rfl
    | false =>
      rw [List.filter_cons_of_pos (by simp [hv]), Dict.get?_cons, Dict.get?_cons]
      split
      · rfl
      · exact ih hrest

/-- The entry of a screenshot is about the screenshot. -/
lemma referenceKey_storageReference (shot : Screenshot) :
    referenceKey (storageReference shot) = shot.key := by
  have hkeys : ∀ k, (storageReference shot).get k = Json.Fields.get
      [(py "bucket", shot.bucket), (py "object_key", shot.objectKey),
        (py "filename", shot.filename), (py "version_id", shot.versionId),
        (py "sha256", shot.sha256), (py "content_type", shot.contentType),
        (py "byte_size", shot.byteSize)] k := by
    intro k
    apply get_filter_isNull
    simp only [Dict.keys, List.map_cons, List.map_nil]
    decide
  rw [referenceKey, hkeys, hkeys, hkeys]
  rfl

/-! ## What the DOCX does not show -/

/-- The screenshots that the DOCX does not show of a block: those in the children of an analysis
that is not available. -/
def Block.hidden : Block → List Screenshot
  | .analysisReference b children => if b.available then [] else blockListScreenshots children
  | _ => []

/-- The pictures a block is rendered with. -/
def Block.pictures (b : Block) : List Screenshot := b.marks.filterMap Mark.picture?

/-- The pictures a list of blocks is rendered with. -/
def blockPictures (bs : List Block) : List Screenshot := (blockMarks bs).filterMap Mark.picture?

lemma filterMap_picture (shots : List Screenshot) :
    (shots.map Mark.picture).filterMap Mark.picture? = shots := by
  simp [List.filterMap_map, Function.comp_def, Mark.picture?]

lemma blockPictures_cons (b : Block) (bs : List Block) :
    blockPictures (b :: bs) = b.pictures ++ blockPictures bs := List.filterMap_append

lemma Block.pictures_incidentEvidence (b : IncidentEvidence) :
    (Block.incidentEvidence b).pictures = b.screenshots := by
  rw [Block.pictures, Block.marks, List.filterMap_append, filterMap_picture]
  simp [Mark.picture?]

lemma Block.pictures_analysisReference (b : AnalysisFields) (children : List Block) :
    (Block.analysisReference b children).pictures =
      b.screenshots ++ if b.available then blockPictures children else [] := by
  rw [Block.pictures, Block.marks, List.filterMap_append, List.filterMap_append,
    filterMap_picture]
  cases b.available with
  | false => simp [Mark.picture?]
  | true =>
    cases b.bookmark.truthy <;>
      simp [List.filterMap_map, Function.comp_def, Mark.picture?, blockPictures]

lemma Block.pictures_alertNavigation (entries : List NavigationEntry) :
    (Block.alertNavigation entries).pictures = [] := by
  rw [Block.pictures, Block.marks, List.filterMap_eq_nil_iff]
  intro mark hmark
  rcases List.mem_cons.mp hmark with rfl | hmark
  · rfl
  · obtain ⟨entry, -, hmark⟩ := List.mem_flatMap.mp hmark
    obtain ⟨name, -, rfl⟩ := List.mem_map.mp hmark
    rfl

/-! ## Which blocks are shown in full -/

/-- Two parts are whole exactly when the whole is. -/
lemma sublist_append_eq_iff {α : Type} {xs xs' ys ys' : List α} (hx : xs.Sublist xs')
    (hy : ys.Sublist ys') : xs ++ ys = xs' ++ ys' ↔ xs = xs' ∧ ys = ys' := by
  constructor
  · intro h
    have hlength := congrArg List.length h
    have hxlength := hx.length_le
    have hylength := hy.length_le
    rw [List.length_append, List.length_append] at hlength
    exact List.append_inj h (by omega)
  · rintro ⟨rfl, rfl⟩
    rfl

mutual

/-- The pictures of a block are screenshots of it. -/
lemma Block.pictures_sublist (b : Block) : b.pictures.Sublist b.screenshots := by
  cases b with
  | screenshot b => exact List.Sublist.refl _
  | incidentEvidence b =>
    rw [Block.pictures_incidentEvidence]
    exact List.Sublist.refl _
  | analysisReference b children =>
    rw [Block.pictures_analysisReference, Block.screenshots]
    refine (List.Sublist.refl _).append ?_
    split
    · exact blockPictures_sublist children
    · exact List.nil_sublist _
  | alertNavigation entries =>
    rw [Block.pictures_alertNavigation]
    exact List.nil_sublist _
  | heading | paragraph | divider | pageBreak | metadata | link | logFileReference
  | bilingualText | bilingualFindList | findList => exact List.nil_sublist _

lemma blockPictures_sublist (bs : List Block) :
    (blockPictures bs).Sublist (blockListScreenshots bs) := by
  cases bs with
  | nil => exact List.nil_sublist _
  | cons b bs =>
    rw [blockPictures_cons, blockListScreenshots]
    exact b.pictures_sublist.append (blockPictures_sublist bs)

end

mutual

/-- All screenshots of a block are shown exactly when none is hidden in it. -/
lemma Block.pictures_eq_iff (b : Block) :
    b.pictures = b.screenshots ↔ ∀ part ∈ b.parts, part.hidden = [] := by
  cases b with
  | analysisReference b children =>
    have hchildren := blockPictures_eq_iff children
    rw [Block.pictures_analysisReference, Block.screenshots, List.append_cancel_left_eq,
      Block.parts, List.forall_mem_cons, ← hchildren]
    cases havailable : b.available with
    | true => simp [Block.hidden, havailable]
    | false =>
      simp only [Block.hidden, havailable, Bool.false_eq_true, if_false]
      constructor
      · intro hnone
        have hsublist := blockPictures_sublist children
        rw [← hnone, List.sublist_nil] at hsublist
        exact ⟨hnone.symm, hsublist.trans hnone⟩
      · rintro ⟨hnone, -⟩
        exact hnone.symm
  | incidentEvidence b => simp [Block.pictures_incidentEvidence, Block.screenshots, Block.parts,
      Block.hidden]
  | alertNavigation entries => simp [Block.pictures_alertNavigation, Block.screenshots,
      Block.parts, Block.hidden]
  | screenshot | heading | paragraph | divider | pageBreak | metadata | link | logFileReference
  | bilingualText | bilingualFindList | findList =>
    simp [Block.pictures, Block.marks, Mark.picture?, Block.screenshots, Block.parts, Block.hidden]

/-- All screenshots of some blocks are shown exactly when none is hidden in them. -/
lemma blockPictures_eq_iff (bs : List Block) :
    blockPictures bs = blockListScreenshots bs ↔ ∀ part ∈ blockListParts bs, part.hidden = [] := by
  cases bs with
  | nil => simp [blockPictures, blockMarks, blockListScreenshots, blockListParts]
  | cons b bs =>
    rw [blockPictures_cons, blockListScreenshots, blockListParts, List.forall_mem_append,
      sublist_append_eq_iff b.pictures_sublist (blockPictures_sublist bs), b.pictures_eq_iff,
      blockPictures_eq_iff bs]

end

/-- The DOCX and the preview of a document show the same screenshots exactly when nothing is
hidden in the document. -/
lemma sameScreenshots_iff {lib : RenderEnv} {includeProvenance : Bool} {doc : ReportDocument}
    {docx : Docx} (hdocx : renderDocument lib includeProvenance doc = .ok docx) :
    SameScreenshots docx doc ↔ ∀ part ∈ blockListParts doc.blocks, part.hidden = [] := by
  have hpictures : docx.pictures = blockPictures doc.blocks := renderDocument_pictures hdocx
  have hprivate : ((documentToPreviewJson doc).2.map referenceKey).Perm
      ((blockListScreenshots doc.blocks).map Screenshot.key) := by
    have hkeys : referenceKey ∘ storageReference = Screenshot.key := by
      funext shot
      exact referenceKey_storageReference shot
    rw [(documentToPreviewJson_screenshots doc).1, List.map_map, hkeys]
    exact (serialisedList_perm doc.blocks).map _
  rw [SameScreenshots, hpictures, ← blockPictures_eq_iff]
  constructor
  · intro hperm
    have hlength := (hperm.trans hprivate).length_eq
    rw [List.length_map, List.length_map] at hlength
    exact (blockPictures_sublist doc.blocks).eq_of_length hlength
  · intro heq
    rw [heq]
    exact hprivate.symm

/-! ## The composed document -/

/-- Nothing is hidden in the presentations of the analyses that the report shows: no analysis
reference in them that is marked unavailable contains a screenshot. -/
def PresentationsShown (env : Env) (plan snapshot : Json.Fields) : Prop :=
  ∀ shown, selectedAnalyses env plan snapshot = .ok shown → ∀ incident ∈ shown,
    ∀ part ∈ blockListParts (analysisPresentation env incident), part.hidden = []

/-- Nothing is hidden in a block other than an analysis reference. -/
lemma hidden_of_leaf {b : Block} (h : ∀ f children, b ≠ .analysisReference f children) :
    ∀ part ∈ b.parts, part.hidden = [] := by
  cases b with
  | analysisReference f children => exact absurd rfl (h f children)
  | heading | paragraph | divider | pageBreak | bilingualText | findList | metadata | link
  | logFileReference | screenshot | alertNavigation | bilingualFindList | incidentEvidence =>
    simp [Block.parts, Block.hidden]

/-- Nothing is hidden in blocks that hold text only. -/
lemma hidden_of_isProse {bs : List Block} (h : ∀ b ∈ bs, b.isProse = true) :
    ∀ part ∈ blockListParts bs, part.hidden = [] := by
  intro part hpart
  obtain ⟨b, hb, hpart⟩ := mem_blockListParts_iff.mp hpart
  refine hidden_of_leaf (fun f children hreference => ?_) part hpart
  have hprose := h b hb
  rw [hreference] at hprose
  cases hprose

/-- What an analysis block hides is hidden in its presentation. -/
lemma analysisBlock_hidden {incident : Json.Fields} {node : Option Json.Fields} {n : ℕ}
    {a : AnalysisFields × List Block} (h : analysisBlock env incident node n = .ok a) :
    (∀ part ∈ (Block.analysisReference a.1 a.2).parts, part.hidden = []) ↔
      ∀ part ∈ blockListParts (analysisPresentation env incident), part.hidden = [] := by
  rw [Block.parts, List.forall_mem_cons]
  rcases analysisBlock_presented h with
    ⟨havailable, -, hchildren, hnone⟩ | ⟨havailable, children, hchildren, hspec⟩
  · rw [hchildren, hnone]
    simp [Block.hidden, havailable, blockListParts, blockListScreenshots]
  · have hheaded : blockListParts a.2 =
        .heading ⟨text "Log Analysis", 3⟩ :: blockListParts children := by
      rw [hchildren]
      rfl
    rw [hheaded, List.forall_mem_cons]
    have hself : (Block.analysisReference a.1 a.2).hidden = [] := by
      simp [Block.hidden, havailable]
    have hheading : (Block.heading ⟨text "Log Analysis", 3⟩).hidden = [] := rfl
    rcases hspec with rfl | ⟨hnone, hprose⟩
    · simp only [hself, hheading, true_and]
    · rw [hnone]
      simp only [hself, hheading, true_and]
      exact ⟨fun _ _ hpart => absurd hpart List.not_mem_nil, fun _ => hidden_of_isProse hprose⟩

/-- What a report hides is hidden in the presentations of its analyses. -/
lemma reportBlocks_hidden {policies : Policies} {incidents : Incidents} {narrative : Bool}
    {refs : PlanRefs} {shown : List Json.Fields} {blocks : List Block}
    (hsummary : ∀ b ∈ refs.summary, b.isProse = true)
    (hshown : analysisIncidents policies incidents refs = .ok shown)
    (h : reportBlocks env policies incidents narrative refs = .ok blocks) :
    (∀ part ∈ blockListParts blocks, part.hidden = []) ↔ ∀ incident ∈ shown,
      ∀ part ∈ blockListParts (analysisPresentation env incident), part.hidden = [] := by
  obtain ⟨alerts, -, h⟩ := Except.bind_eq_ok.mp h
  obtain ⟨shown', hshown', h⟩ := Except.bind_eq_ok.mp h
  cases hshown.symm.trans hshown'
  obtain ⟨analyses, hanalyses, h⟩ := Except.bind_eq_ok.mp h
  obtain ⟨evidence, hevidence, h⟩ := Except.bind_eq_ok.mp h
  cases h
  constructor
  · intro hnone incident hi
    obtain ⟨n, hn⟩ := List.getElem?_of_mem hi
    obtain ⟨a, ha, hblock⟩ :=
      Except.exists_of_mapM_eq_ok hanalyses (List.mk_mem_zipIdx_iff_getElem?.mpr hn)
    apply (analysisBlock_hidden hblock).mp
    intro part hpart
    refine hnone part (mem_blockListParts_iff.mpr ⟨_, ?_, hpart⟩)
    exact List.mem_append_right _ (List.mem_map_of_mem ha)
  · intro hnone part hpart
    obtain ⟨b, hb, hpart⟩ := mem_blockListParts_iff.mp hpart
    simp only [List.cons_append, List.mem_cons, List.mem_append, List.mem_map, List.not_mem_nil,
      or_false] at hb
    rcases hb with rfl | ((((hb | hb) | rfl | rfl) | hb) | rfl | rfl) | ⟨a, ha, rfl⟩
    · exact hidden_of_leaf (by simp) part hpart
    · unfold navigationBlocks at hb
      split at hb
      · cases hb
      · rw [List.mem_singleton.mp hb] at hpart
        exact hidden_of_leaf (by simp) part hpart
    · obtain ⟨p, -, hp⟩ := Except.mem_of_mapM_eq_ok hevidence hb
      obtain ⟨e, rfl, -⟩ := incidentBlock_spec hp
      exact hidden_of_leaf (by simp) part hpart
    · exact hidden_of_leaf (by simp) part hpart
    · exact hidden_of_leaf (by simp) part hpart
    · exact hidden_of_isProse hsummary part (mem_blockListParts_iff.mpr ⟨b, hb, hpart⟩)
    · exact hidden_of_leaf (by simp) part hpart
    · exact hidden_of_leaf (by simp) part hpart
    · obtain ⟨p, hp, hblock⟩ := Except.mem_of_mapM_eq_ok hanalyses ha
      exact (analysisBlock_hidden hblock).mpr (hnone p.1 (List.fst_mem_of_mem_zipIdx hp)) part hpart

/-- **When the DOCX and the preview show the same screenshots.** When the document of an accepted
plan is rendered, the DOCX shows exactly the images that the private list of the preview names,
each as often, if and only if nothing is hidden in the presentations of the analyses that the
report shows. -/
theorem composeReport_sameScreenshots_iff (env : Env) (lib : RenderEnv) (includeProvenance : Bool)
    (plan snapshot : Json.Fields) (doc : ReportDocument) (docx : Docx)
    (h : composeReport env (.obj plan) snapshot = .ok doc)
    (hdocx : renderDocument lib includeProvenance doc = .ok docx) :
    SameScreenshots docx doc ↔ PresentationsShown env plan snapshot := by
  obtain ⟨policies, incidents, refs, alerts, shown, hc⟩ := composeReport_composed h
  have hhidden := reportBlocks_hidden (readPlan_isProse hc.planRead) hc.analysesFound
    hc.blocksBuilt
  rw [sameScreenshots_iff hdocx, hhidden]
  constructor
  · intro hshown shown' hselected
    cases hc.selected.symm.trans hselected
    exact hshown
  · intro hshown
    exact hshown shown hc.selected

/-- A result whose presentation holds an analysis reference with a screenshot in it. -/
def nestedResult (available : Bool) : Json :=
  .obj [(py "report_presentation", .obj [(py "blocks", .arr [.obj [
    (py "type", text "analysis_reference"), (py "heading", text "Earlier analysis"),
    (py "available", .bool available), (py "children", .arr [.obj [
      (py "type", text "screenshot"), (py "bucket", text "evidence"),
      (py "object_key", text "a.png")]])]])])]

/-- The DOCX and the preview of a report whose presentations hide nothing. -/
theorem sample_sameScreenshots :
    ∃ doc docx,
      composeReport reprEnv (.obj samplePlan) (sampleSnapshot (nestedResult true)) = .ok doc ∧
        renderDocument sampleLib false doc = .ok docx ∧
        (SameScreenshots docx doc ↔
          PresentationsShown reprEnv samplePlan (sampleSnapshot (nestedResult true))) :=
  ⟨_, _, rfl, rfl, composeReport_sameScreenshots_iff reprEnv sampleLib false samplePlan
    (sampleSnapshot (nestedResult true)) _ _ rfl rfl⟩

/-- **The DOCX and the preview do not always show the same screenshots.** The private list of the
preview names a screenshot inside an analysis reference that is marked unavailable; the DOCX does
not show it. -/
theorem composeReport_not_sameScreenshots :
    ¬ ∀ (env : Env) (lib : RenderEnv) (includeProvenance : Bool) (plan snapshot : Json.Fields)
      (doc : ReportDocument) (docx : Docx), composeReport env (.obj plan) snapshot = .ok doc →
      renderDocument lib includeProvenance doc = .ok docx → SameScreenshots docx doc := by
  intro hall
  obtain ⟨doc, docx, hdoc, hdocx, hlength⟩ : ∃ doc docx,
      composeReport reprEnv (.obj samplePlan) (sampleSnapshot (nestedResult false)) = .ok doc ∧
        renderDocument sampleLib false doc = .ok docx ∧
        docx.pictures.length + 1 = (documentToPreviewJson doc).2.length :=
    ⟨_, _, rfl, rfl, rfl⟩
  have hsame := (hall reprEnv sampleLib false samplePlan (sampleSnapshot (nestedResult false)) doc
    docx hdoc hdocx).length_eq
  rw [List.length_map, List.length_map] at hsame
  omega

end Report
