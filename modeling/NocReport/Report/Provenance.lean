import NocReport.Report.Links

set_option relaxedAutoImplicit false
set_option autoImplicit false

/-!
# Provenance in the rendered report

The renderer shows where a report comes from only where it is asked to: the ids of the incidents
and of the analyses, what an analysis was made with, and what the report was. An operator's report
is rendered without any of it, and the audit rendering is the operator's one with paragraphs added.

## Main definitions

* `Report.Block.withoutProvenance`, `Report.ReportDocument.withoutProvenance` — the provenance left
  out.
* `Report.Adds` — a rendering that adds to another one.

## Main results

* `Report.renderBlock_withoutProvenance` — the operator's rendering does not depend on it.
* `Report.renderBlock_adds` — the audit rendering adds to the operator's one.
* `Report.renderDocument_provenance` — both for whole documents.
-/

namespace Report

mutual

/-- A block without its provenance. -/
def Block.withoutProvenance : Block → Block
  | .incidentEvidence b => .incidentEvidence { b with incidentId := .null }
  | .analysisReference b children =>
    .analysisReference
      { b with incidentId := none, analysisRunId := none, metadata := [], provenance := [] }
      (listWithoutProvenance children)
  | b => b

/-- A list of blocks without their provenance. -/
def listWithoutProvenance : List Block → List Block
  | [] => []
  | b :: bs => b.withoutProvenance :: listWithoutProvenance bs

end

/-- A document without its provenance. -/
def ReportDocument.withoutProvenance (doc : ReportDocument) : ReportDocument :=
  { doc with blocks := listWithoutProvenance doc.blocks, provenance := [] }

variable (env : RenderEnv)

/-! ## The operator's rendering -/

mutual

/-- A block is rendered for the operator without its provenance. -/
theorem renderBlock_withoutProvenance (b : Block) :
    renderBlock env false b.withoutProvenance = renderBlock env false b := by
  cases b with
  | incidentEvidence b => rfl
  | analysisReference b children =>
    have hchildren := renderBlocks_withoutProvenance children
    simp only [Block.withoutProvenance, renderBlock, hchildren]
    rfl
  | heading | paragraph | divider | pageBreak | metadata | link | logFileReference | screenshot
  | alertNavigation | bilingualText | bilingualFindList | findList => rfl

theorem renderBlocks_withoutProvenance (bs : List Block) :
    renderBlocks env false (listWithoutProvenance bs) = renderBlocks env false bs := by
  cases bs with
  | nil => rfl
  | cons b bs =>
    simp only [listWithoutProvenance, renderBlocks, renderBlock_withoutProvenance b,
      renderBlocks_withoutProvenance bs]

end

/-! ## The audit rendering -/

/-- Where the first rendering succeeds the second one does, with some of the same elements in the
same order. -/
def Adds (x y : Except PyError (List BodyElement)) : Prop :=
  ∀ es, x = .ok es → ∃ es', y = .ok es' ∧ es'.Sublist es

variable {x x' y y' : Except PyError (List BodyElement)}

lemma Adds.refl (x : Except PyError (List BodyElement)) : Adds x x :=
  fun es h => ⟨es, h, List.Sublist.refl es⟩

/-- What adds paragraphs only in the audit rendering adds to nothing. -/
lemma Adds.nothing (x : Except PyError (List BodyElement)) : Adds x (.ok []) :=
  fun es _ => ⟨[], rfl, List.nil_sublist es⟩

/-- One rendering after another. -/
lemma Adds.append (h : Adds x y) (h' : Adds x' y') :
    Adds (x >>= fun es => x' >>= fun es' => pure (es ++ es'))
      (y >>= fun es => y' >>= fun es' => pure (es ++ es')) := by
  intro es hes
  obtain ⟨first, hfirst, hes⟩ := Except.bind_eq_ok.mp hes
  obtain ⟨rest, hrest, hes⟩ := Except.bind_eq_ok.mp hes
  cases hes
  obtain ⟨first', hfirst', hsub⟩ := h first hfirst
  obtain ⟨rest', hrest', hsub'⟩ := h' rest hrest
  rw [hfirst', hrest']
  exact ⟨first' ++ rest', rfl, hsub.append hsub'⟩

/-- A rendering after something that both do alike. -/
lemma Adds.bind {α : Type} (a : Except PyError α) {f g : α → Except PyError (List BodyElement)}
    (h : ∀ v, Adds (f v) (g v)) : Adds (a >>= f) (a >>= g) := by
  intro es hes
  obtain ⟨v, hv, hes⟩ := Except.bind_eq_ok.mp hes
  rw [hv]
  exact h v es hes

/-- The audit rendering of an incident ends with its id. -/
lemma addIncidentEvidence_adds (b : IncidentEvidence) :
    Adds (addIncidentEvidence env true b) (addIncidentEvidence env false b) := by
  unfold addIncidentEvidence
  refine Adds.bind _ fun heading => Adds.bind _ fun shots => Adds.bind _ fun facts =>
    Adds.bind _ fun links => Adds.bind _ fun logFile => ?_
  intro es hes
  obtain ⟨provenance, -, hes⟩ := Except.bind_eq_ok.mp hes
  cases hes
  refine ⟨_, rfl, ?_⟩
  exact (List.Sublist.refl _).append (List.nil_sublist _)

/-- What stands above the body of an analysis ends with its provenance. -/
lemma addAnalysisFront_adds (b : AnalysisFields) :
    Adds (addAnalysisFront env true b) (addAnalysisFront env false b) := by
  unfold addAnalysisFront
  refine Adds.bind _ fun heading => Adds.bind _ fun shots => Adds.bind _ fun logFile => ?_
  intro es hes
  obtain ⟨provenance, -, hes⟩ := Except.bind_eq_ok.mp hes
  cases hes
  refine ⟨_, rfl, ?_⟩
  exact (List.Sublist.refl _).append (List.nil_sublist _)

/-- An analysis whose children add something adds it too. -/
lemma addAnalysisReference_adds (b : AnalysisFields) (h : Adds x y) :
    Adds (addAnalysisReference env true b x) (addAnalysisReference env false b y) := by
  intro es hes
  obtain ⟨front, hfront, hes⟩ := Except.bind_eq_ok.mp hes
  obtain ⟨front', hfront', hsub⟩ := addAnalysisFront_adds env b front hfront
  cases havailable : b.available with
  | false =>
    rw [havailable] at hes
    obtain ⟨p, hp, hes⟩ := Except.bind_eq_ok.mp hes
    cases hes
    refine ⟨front' ++ [.paragraph p], ?_, hsub.append (List.Sublist.refl _)⟩
    refine Except.bind_eq_ok.mpr ⟨front', hfront', ?_⟩
    rw [havailable]
    exact Except.bind_eq_ok.mpr ⟨p, hp, rfl⟩
  | true =>
    rw [havailable] at hes
    obtain ⟨children, hchildren, hes⟩ := Except.bind_eq_ok.mp hes
    obtain ⟨fields, hfields, hes⟩ := Except.bind_eq_ok.mp hes
    obtain ⟨back, hback, hes⟩ := Except.bind_eq_ok.mp hes
    cases hes
    obtain ⟨children', hchildren', hsub'⟩ := h children hchildren
    have hinner := hsub.append hsub'
    refine ⟨front' ++ children' ++ fields ++ back, ?_,
      (hinner.append (List.Sublist.refl _)).append (List.Sublist.refl _)⟩
    refine Except.bind_eq_ok.mpr ⟨front', hfront', ?_⟩
    rw [havailable]
    refine Except.bind_eq_ok.mpr ⟨children', hchildren', ?_⟩
    refine Except.bind_eq_ok.mpr ⟨fields, hfields, ?_⟩
    exact Except.bind_eq_ok.mpr ⟨back, hback, rfl⟩

mutual

/-- The audit rendering of a block adds to the operator's one. -/
theorem renderBlock_adds (b : Block) : Adds (renderBlock env true b) (renderBlock env false b) := by
  cases b with
  | incidentEvidence b => exact addIncidentEvidence_adds env b
  | analysisReference b children =>
    exact addAnalysisReference_adds env b (renderBlocks_adds children)
  | heading | paragraph | divider | pageBreak | metadata | link | logFileReference | screenshot
  | alertNavigation | bilingualText | bilingualFindList | findList => exact Adds.refl _

theorem renderBlocks_adds (bs : List Block) :
    Adds (renderBlocks env true bs) (renderBlocks env false bs) := by
  cases bs with
  | nil => exact Adds.refl _
  | cons b bs => exact (renderBlock_adds b).append (renderBlocks_adds bs)

end

/-! ## Documents -/

/-- The operator's rendering of a document does not depend on its provenance: documents that differ
in nothing else are rendered alike, errors included. The audit rendering adds to it: where a
document has an audit rendering it has an operator's one, with the same header and footer and some
of the elements of the body, in the same order. -/
theorem renderDocument_provenance :
    (∀ doc doc' : ReportDocument, doc.withoutProvenance = doc'.withoutProvenance →
      renderDocument env false doc = renderDocument env false doc') ∧
    ∀ (doc : ReportDocument) (audit : Docx), renderDocument env true doc = .ok audit →
      ∃ docx : Docx, renderDocument env false doc = .ok docx ∧
        docx.header = audit.header ∧ docx.footer = audit.footer ∧
        docx.body.Sublist audit.body := by
  constructor
  · intro doc doc' h
    have hwithout : ∀ doc : ReportDocument,
        renderDocument env false doc.withoutProvenance = renderDocument env false doc := by
      intro doc
      simp only [renderDocument, ReportDocument.withoutProvenance,
        renderBlocks_withoutProvenance env doc.blocks]
      rfl
    rw [← hwithout doc, h, hwithout doc']
  · intro doc audit h
    obtain ⟨header, hheader, h⟩ := Except.bind_eq_ok.mp h
    obtain ⟨footer, hfooter, h⟩ := Except.bind_eq_ok.mp h
    obtain ⟨title, htitle, h⟩ := Except.bind_eq_ok.mp h
    obtain ⟨subtitle, hsubtitle, h⟩ := Except.bind_eq_ok.mp h
    obtain ⟨provenance, hprovenance, h⟩ := Except.bind_eq_ok.mp h
    obtain ⟨blocks, hblocks, h⟩ := Except.bind_eq_ok.mp h
    cases h
    obtain ⟨blocks', hblocks', hsub⟩ := renderBlocks_adds env doc.blocks blocks hblocks
    refine ⟨⟨[header], footer, .paragraph title :: subtitle ++ [] ++ blocks'⟩, ?_, rfl, rfl, ?_⟩
    · refine Except.bind_eq_ok.mpr ⟨header, hheader, ?_⟩
      refine Except.bind_eq_ok.mpr ⟨footer, hfooter, ?_⟩
      refine Except.bind_eq_ok.mpr ⟨title, htitle, ?_⟩
      refine Except.bind_eq_ok.mpr ⟨subtitle, hsubtitle, ?_⟩
      refine Except.bind_eq_ok.mpr ⟨[], rfl, ?_⟩
      exact Except.bind_eq_ok.mpr ⟨blocks', hblocks', rfl⟩
    · exact ((List.Sublist.refl _).append (List.nil_sublist _)).append hsub

/-- A document with the incident that has the given id. -/
def incidentDocument (incidentId : String) : ReportDocument where
  title := .str (py "Report")
  blocks := [.incidentEvidence
    ⟨.str (py "Disk full"), .str (py incidentId), [], none, [], none, [], .null⟩]
  metadata := []
  provenance := [⟨.str (py "Incident"), py incidentId⟩]

/-- The operator sees the same report for two incidents that differ in their ids only, and the audit
rendering has three more paragraphs. -/
theorem incidentDocument_provenance :
    renderDocument sampleLib false (incidentDocument "i1") =
        renderDocument sampleLib false (incidentDocument "i2") ∧
      ∃ docx audit : Docx, renderDocument sampleLib false (incidentDocument "i1") = .ok docx ∧
        renderDocument sampleLib true (incidentDocument "i1") = .ok audit ∧
        docx.body.Sublist audit.body ∧ audit.body.length = docx.body.length + 3 := by
  refine ⟨(renderDocument_provenance sampleLib).1 _ _ rfl, ?_⟩
  obtain ⟨audit, haudit, hlength⟩ : ∃ audit : Docx,
      renderDocument sampleLib true (incidentDocument "i1") = .ok audit ∧
        audit.body.length = 5 := ⟨_, rfl, rfl⟩
  obtain ⟨docx, hdocx, -, -, hsub⟩ := (renderDocument_provenance sampleLib).2 _ audit haudit
  have hshort : docx.body.length = 2 := by
    cases hdocx
    rfl
  exact ⟨docx, audit, hdocx, haudit, hsub, by omega⟩

end Report
