import NocReport.Report.Composition

set_option relaxedAutoImplicit false
set_option autoImplicit false

/-!
# Which stored objects a report may show

A report document names stored images, and whoever renders it reads them. They should all be
frozen evidence: objects in the screenshot list of an incident of the snapshot. The screenshots
of incidents and of analysis references are; those a stored analysis result brings along in its
`report_presentation` are whatever that result says.

## Main definitions

* `Report.StorageClosed` — every screenshot of a document is frozen evidence of the snapshot.
* `Report.PresentationsFrozen` — every screenshot in the presentations of the analyses that a
  plan selects is frozen evidence of the snapshot.

## Main results

* `Report.composeReport_storageClosed_iff` — a composed document is closed exactly when the
  selected presentations are frozen.
* `Report.composeReport_not_storageClosed` — not every composed document is closed.
-/

namespace Report

variable {env : Env}

/-! ## Frozen evidence -/

/-- The elements of the screenshot list of an incident. -/
def screenshotList (incident : Json.Fields) : List Json :=
  match incident.get (py "screenshots") with
  | .arr xs => xs
  | _ => []

/-- The incidents of a snapshot. -/
def snapshotIncidents (snapshot : Json.Fields) : List Json.Fields :=
  objects (snapshot.get (py "incidents"))

/-- The frozen screenshots of a snapshot. -/
def frozenScreenshots (snapshot : Json.Fields) : List Json :=
  (snapshotIncidents snapshot).flatMap screenshotList

/-- Two objects name the same stored bytes. -/
def SameReference (a b : Json) : Prop :=
  a.get? (py "bucket") = b.get? (py "bucket") ∧ a.get? (py "object_key") = b.get? (py "object_key") ∧
    (a.get? (py "version_id")).getD .null = (b.get? (py "version_id")).getD .null ∧
    (a.get? (py "sha256")).getD .null = (b.get? (py "sha256")).getD .null

/-- The screenshot names the stored bytes the object names. -/
def Screenshot.Matches (shot : Screenshot) (item : Json) : Prop :=
  item.get? (py "bucket") = some shot.bucket ∧ item.get? (py "object_key") = some shot.objectKey ∧
    (item.get? (py "version_id")).getD .null = shot.versionId ∧
    (item.get? (py "sha256")).getD .null = shot.sha256

/-- Every screenshot of the document is frozen evidence of the snapshot. -/
def StorageClosed (snapshot : Json.Fields) (doc : ReportDocument) : Prop :=
  ∀ shot ∈ doc.screenshots, ∃ item ∈ frozenScreenshots snapshot, shot.Matches item

/-- The objects the presentation of an analysis result is read as screenshots of. -/
def resultScreenshots (result : Json) : List Json :=
  match result with
  | .obj fields => match explicitPresentation fields with
    | some blocks => rawScreenshotList blocks
    | none => []
  | _ => []

/-- The objects that the presentation of an incident's analysis is read as screenshots of. -/
def presentationScreenshots (incident : Json.Fields) : List Json :=
  if (incident.get (py "analysis_run_id")).truthy then
    resultScreenshots (incident.get (py "analysis"))
  else []

/-- The incidents whose analyses the plan and the snapshot select for the report. -/
def selectedAnalyses (env : Env) (plan snapshot : Json.Fields) :
    Except PyError (List Json.Fields) := do
  let policies ← readPolicies env snapshot
  let incidents ← collectIncidents env snapshot
  let refs ← readPlan env policies.canonical incidents plan
  analysisIncidents policies incidents refs

/-- Every screenshot in the presentation of a selected analysis is frozen evidence. -/
def PresentationsFrozen (env : Env) (plan snapshot : Json.Fields) : Prop :=
  ∀ shown, selectedAnalyses env plan snapshot = .ok shown → ∀ incident ∈ shown,
    ∀ raw ∈ presentationScreenshots incident, ∃ item ∈ frozenScreenshots snapshot,
      SameReference raw item

/-- A screenshot names the bytes of the object it is read from. -/
lemma screenshotFromDict_matches {raw : Json} {shot : Screenshot}
    (h : screenshotFromDict raw = .ok shot) : shot.Matches raw := by
  cases raw with
  | obj fields =>
    obtain ⟨bucket, hb, h⟩ := Except.bind_eq_ok.mp h
    obtain ⟨objectKey, hk, h⟩ := Except.bind_eq_ok.mp h
    obtain ⟨filename, -, h⟩ := Except.bind_eq_ok.mp h
    obtain ⟨versionId, hv, h⟩ := Except.bind_eq_ok.mp h
    obtain ⟨sha256, hs, h⟩ := Except.bind_eq_ok.mp h
    obtain ⟨contentType, -, h⟩ := Except.bind_eq_ok.mp h
    obtain ⟨byteSize, -, h⟩ := Except.bind_eq_ok.mp h
    cases h
    refine ⟨?_, ?_, Except.pure_eq_ok.mp hv, Except.pure_eq_ok.mp hs⟩
    · exact index_obj_eq_ok hb
    · exact index_obj_eq_ok hk
  | null | bool | int | float | str | arr => cases h
where
  index_obj_eq_ok {fields : Json.Fields} {k : PyStr} {v : Json}
      (h : (Json.obj fields).index k = .ok v) : Dict.get? fields k = some v := by
    simp only [Json.index] at h
    split at h
    · next x hx =>
      cases h
      exact hx
    · cases h

lemma Screenshot.Matches.trans_sameReference {shot : Screenshot} {raw item : Json}
    (h : shot.Matches raw) (hs : SameReference raw item) : shot.Matches item := by
  obtain ⟨hb, hk, hv, hh⟩ := h
  obtain ⟨sb, sk, sv, sh⟩ := hs
  exact ⟨sb ▸ hb, sk ▸ hk, sv ▸ hv, sh ▸ hh⟩

/-- Two objects that match one screenshot name the same bytes. -/
lemma Screenshot.Matches.sameReference {shot : Screenshot} {raw item : Json}
    (h : shot.Matches raw) (hi : shot.Matches item) : SameReference raw item := by
  obtain ⟨hb, hk, hv, hh⟩ := h
  obtain ⟨ib, ik, iv, ih⟩ := hi
  exact ⟨hb.trans ib.symm, hk.trans ik.symm, hv.trans iv.symm, hh.trans ih.symm⟩

/-! ## The screenshots of blocks -/

lemma mem_blockListScreenshots {bs : List Block} {shot : Screenshot} :
    shot ∈ blockListScreenshots bs ↔ ∃ b ∈ bs, shot ∈ b.screenshots := by
  induction bs with
  | nil => simp [blockListScreenshots]
  | cons b bs ih => simp [blockListScreenshots, ih]

lemma blockListScreenshots_append (bs cs : List Block) :
    blockListScreenshots (bs ++ cs) = blockListScreenshots bs ++ blockListScreenshots cs := by
  induction bs with
  | nil => rfl
  | cons b bs ih => simp [blockListScreenshots, ih]

/-- No block of the list contains a screenshot. -/
lemma blockListScreenshots_eq_nil {bs : List Block} (h : ∀ b ∈ bs, b.screenshots = []) :
    blockListScreenshots bs = [] := by
  rw [List.eq_nil_iff_forall_not_mem]
  intro shot hshot
  obtain ⟨b, hb, hs⟩ := mem_blockListScreenshots.mp hshot
  rw [h b hb] at hs
  cases hs

/-- The screenshots of an incident are in its list. -/
lemma incidentScreenshots_matches {incident : Json.Fields} {shots : List Screenshot}
    (h : incidentScreenshots incident = .ok shots) :
    ∀ shot ∈ shots, ∃ item ∈ screenshotList incident, shot.Matches item := by
  intro shot hshot
  obtain ⟨items, hitems, hmap⟩ := Except.bind_eq_ok.mp h
  obtain ⟨item, hitem, hread⟩ := Except.mem_of_mapM_eq_ok hmap hshot
  obtain ⟨hmem, hstored⟩ := List.mem_filter.mp hitem
  have hobj : item.isObject = true := by
    cases item with
    | obj => rfl
    | null | bool | int | float | str | arr => cases hstored
  obtain ⟨xs, hxs, hx⟩ := Json.mem_of_iter_or hitems hmem hobj
  refine ⟨item, ?_, screenshotFromDict_matches hread⟩
  rw [screenshotList, hxs]
  exact hx

/-! ## The screenshots of the presentation -/

lemma buildReportDocument_blocks {rt : PyRuntime} {blocks : List Json} {doc : ReportDocument}
    (h : buildReportDocument rt [(py "metadata", .obj []), (py "blocks", .arr blocks)] =
      .ok doc) : parseBlocks rt (.arr blocks) = .ok doc.blocks := by
  obtain ⟨metadata, -, h⟩ := Except.bind_eq_ok.mp h
  obtain ⟨provenance, -, h⟩ := Except.bind_eq_ok.mp h
  obtain ⟨bs, hbs, h⟩ := Except.bind_eq_ok.mp h
  cases h
  exact hbs

/-- Blocks that hold text only have no screenshots. -/
lemma blockListScreenshots_of_isProse {bs : List Block} (h : ∀ b ∈ bs, b.isProse = true) :
    blockListScreenshots bs = [] :=
  blockListScreenshots_eq_nil fun b hb => Block.screenshots_of_isProse (h b hb)

lemma languageSection_isProse {result : Json.Fields} {zh : Bool} {bs : List Block}
    (h : languageSection env result zh = .ok bs) : ∀ b ∈ bs, b.isProse = true := by
  obtain ⟨keyFinds, hkey, h⟩ := Except.bind_eq_ok.mp h
  obtain ⟨secondaryFinds, hsecondary, h⟩ := Except.bind_eq_ok.mp h
  obtain ⟨_, -, hkey⟩ := Except.bind_eq_ok.mp hkey
  obtain ⟨_, -, hsecondary⟩ := Except.bind_eq_ok.mp hsecondary
  cases hkey
  cases hsecondary
  cases h
  exact List.all_eq_true.mp rfl

/-- A result without a presentation of its own is presented by prose. -/
lemma buildAnalysisPresentation_isProse {fields : Json.Fields} {contract : Json} {bs : List Block}
    (hexplicit : explicitPresentation fields = none)
    (h : buildAnalysisPresentation env (.obj fields) contract = .ok bs) :
    ∀ b ∈ bs, b.isProse = true := by
  simp only [buildAnalysisPresentation] at h
  split at h
  · rw [hexplicit] at h
    obtain ⟨chinese, hzh, h⟩ := Except.bind_eq_ok.mp h
    obtain ⟨english, hen, h⟩ := Except.bind_eq_ok.mp h
    cases h
    intro b hb
    rcases List.mem_append.mp hb with hb | hb
    · exact languageSection_isProse hzh b hb
    · exact languageSection_isProse hen b hb
  · exact absurd h Except.throw_ne_ok

/-- The screenshots of the presentation of an analysis. -/
lemma buildAnalysisPresentation_screenshots {result contract : Json} {bs : List Block}
    (h : buildAnalysisPresentation env result contract = .ok bs) :
    ReadAs (resultScreenshots result) (blockListScreenshots bs) := by
  cases result with
  | obj fields =>
    unfold resultScreenshots
    dsimp only
    cases he : explicitPresentation fields with
    | some blocks =>
      simp only [buildAnalysisPresentation, he] at h
      split at h
      · obtain ⟨doc, hdoc, h⟩ := Except.bind_eq_ok.mp h
        cases h
        exact parseBlocks_screenshots (.arr blocks) _ (buildReportDocument_blocks hdoc)
      · exact absurd h Except.throw_ne_ok
    | none =>
      rw [blockListScreenshots_of_isProse (buildAnalysisPresentation_isProse he h)]
      exact .nil
  | null | bool | int | float | str | arr =>
    cases h
    exact .nil

lemma pair_isProse {fragment : Json} {key : PyStr} {b : Block}
    (h : pair env fragment key = .ok (some b)) : b.isProse = true := by
  obtain ⟨value, -, h⟩ := Except.bind_eq_ok.mp h
  split at h
  · dsimp only at h
    split at h
    · cases h
    · cases h
      rfl
  · cases h

lemma ok_of_wrapValueError {α : Type} {x : Except PyError α} {a : α}
    (h : wrapValueError x = .ok a) : x = .ok a := by
  unfold wrapValueError at h
  split at h
  · cases h
  · exact h

/-- **The children of an available analysis** are its presentation, or else the compact export,
which is prose. -/
lemma analysisChildren_spec {incident : Json.Fields} {fragment : Json} {bs : List Block}
    (h : analysisChildren env incident fragment = .ok bs) :
    ∃ children, buildAnalysisPresentation env (incident.get (py "analysis"))
        (incident.get (py "analysis_presentation_contract")) = .ok children ∧
      (bs = children ∨ children = [] ∧ ∀ b ∈ bs, b.isProse = true) := by
  obtain ⟨children, hchildren, h⟩ := Except.bind_eq_ok.mp h
  refine ⟨children, ok_of_wrapValueError hchildren, ?_⟩
  split at h
  · next hempty =>
    refine .inr ⟨List.isEmpty_iff.mp hempty, ?_⟩
    obtain ⟨summary, hsummary, h⟩ := Except.bind_eq_ok.mp h
    obtain ⟨likelyCause, hcause, h⟩ := Except.bind_eq_ok.mp h
    obtain ⟨recommendedAction, haction, h⟩ := Except.bind_eq_ok.mp h
    cases h
    intro b hb
    simp only [List.mem_append, Option.mem_toList] at hb
    rcases hb with (rfl | hb) | hb
    · exact pair_isProse hsummary
    · cases likelyCause with
      | none => cases hb
      | some c =>
        simp only [List.mem_cons, List.not_mem_nil, or_false] at hb
        rcases hb with rfl | rfl
        · rfl
        · exact pair_isProse hcause
    · cases recommendedAction with
      | none => cases hb
      | some c =>
        simp only [List.mem_cons, List.not_mem_nil, or_false] at hb
        rcases hb with rfl | rfl
        · rfl
        · exact pair_isProse haction
  · cases h
    exact .inl rfl

/-- The screenshots of the children of an available analysis are those of its presentation. -/
lemma analysisChildren_screenshots {incident : Json.Fields} {fragment : Json} {bs : List Block}
    (h : analysisChildren env incident fragment = .ok bs) :
    ReadAs (resultScreenshots (incident.get (py "analysis"))) (blockListScreenshots bs) := by
  obtain ⟨children, hchildren, hbs⟩ := analysisChildren_spec h
  have hread := buildAnalysisPresentation_screenshots hchildren
  rcases hbs with rfl | ⟨rfl, hprose⟩
  · exact hread
  · rw [blockListScreenshots_of_isProse hprose]
    exact hread

/-- The children of an available analysis are prose, unless its result brings a presentation. -/
lemma analysisChildren_isProse {incident : Json.Fields} {fragment : Json} {bs : List Block}
    (hexplicit : ∀ fields, incident.get (py "analysis") = .obj fields →
      explicitPresentation fields = none)
    (h : analysisChildren env incident fragment = .ok bs) : ∀ b ∈ bs, b.isProse = true := by
  obtain ⟨children, hchildren, rfl | ⟨-, hprose⟩⟩ := analysisChildren_spec h
  · cases hresult : incident.get (py "analysis") with
    | obj fields =>
      rw [hresult] at hchildren
      exact buildAnalysisPresentation_isProse (hexplicit fields hresult) hchildren
    | null | bool | int | float | str | arr =>
      rw [hresult] at hchildren
      cases hchildren
      simp
  · exact hprose

/-- **The screenshots of an analysis block**: its own are in the incident's list, and those of
its children are read from the presentation of the analysis. -/
lemma analysisBlock_screenshots {incident : Json.Fields} {node : Option Json.Fields} {n : ℕ}
    {fields : AnalysisFields} {children : List Block}
    (h : analysisBlock env incident node n = .ok (fields, children)) :
    (∀ shot ∈ fields.screenshots, ∃ item ∈ screenshotList incident, shot.Matches item) ∧
      ReadAs (presentationScreenshots incident) (blockListScreenshots children) := by
  obtain ⟨-, -, h⟩ := Except.bind_eq_ok.mp h
  have hpres : presentationScreenshots incident =
      if (incident.get (py "analysis_run_id")).truthy then
        resultScreenshots (incident.get (py "analysis")) else [] := rfl
  rw [hpres]
  dsimp only at h
  split at h
  · next hrun =>
    cases h
    rw [if_neg (by simpa using hrun)]
    exact ⟨fun _ hshot => absurd hshot List.not_mem_nil, .nil⟩
  · next hrun =>
    rw [if_pos (by simpa using hrun)]
    obtain ⟨fragment, -, h⟩ := Except.bind_eq_ok.mp h
    split at h
    · next hnone =>
      cases h
      refine ⟨fun _ hshot => absurd hshot List.not_mem_nil, ?_⟩
      simp only [Bool.and_eq_true, Bool.not_eq_true'] at hnone
      obtain ⟨-, hnone⟩ := hnone
      cases ha : incident.get (py "analysis") with
      | obj fields =>
        rw [ha] at hnone
        cases hnone
      | null | bool | int | float | str | arr => exact .nil
    · obtain ⟨bs, hbs, h⟩ := Except.bind_eq_ok.mp h
      obtain ⟨shots, hshots, h⟩ := Except.bind_eq_ok.mp h
      obtain ⟨bookmark, -, h⟩ := Except.bind_eq_ok.mp h
      cases h
      have hread := analysisChildren_screenshots hbs
      exact ⟨incidentScreenshots_matches hshots, hread⟩

/-- The blocks that the analysis of an incident is presented by; there are none without a run. -/
def analysisPresentation (env : Env) (incident : Json.Fields) : List Block :=
  if (incident.get (py "analysis_run_id")).truthy then
    match buildAnalysisPresentation env (incident.get (py "analysis"))
        (incident.get (py "analysis_presentation_contract")) with
    | .ok blocks => blocks
    | .error _ => []
  else []

/-- **How an analysis block presents the analysis.** One that is not available has nothing in it;
one that is has a heading and the presentation, or else the compact export, which is prose. -/
lemma analysisBlock_presented {incident : Json.Fields} {node : Option Json.Fields} {n : ℕ}
    {a : AnalysisFields × List Block} (h : analysisBlock env incident node n = .ok a) :
    (a.1.available = false ∧ a.1.screenshots = [] ∧ a.2 = [] ∧
        analysisPresentation env incident = []) ∨
      (a.1.available = true ∧ ∃ children, a.2 = .heading ⟨text "Log Analysis", 3⟩ :: children ∧
        (children = analysisPresentation env incident ∨
          analysisPresentation env incident = [] ∧ ∀ b ∈ children, b.isProse = true)) := by
  obtain ⟨-, -, h⟩ := Except.bind_eq_ok.mp h
  dsimp only at h
  split at h
  · next hrun =>
    cases h
    exact .inl ⟨rfl, rfl, rfl, if_neg (by simpa using hrun)⟩
  · next hrun =>
    obtain ⟨fragment, -, h⟩ := Except.bind_eq_ok.mp h
    rw [analysisPresentation, if_pos (by simpa using hrun)]
    split at h
    · next hnone =>
      cases h
      refine .inl ⟨rfl, rfl, rfl, ?_⟩
      simp only [Bool.and_eq_true, Bool.not_eq_true'] at hnone
      obtain ⟨-, hnone⟩ := hnone
      cases hresult : incident.get (py "analysis") with
      | obj fields =>
        rw [hresult] at hnone
        cases hnone
      | null | bool | int | float | str | arr => rfl
    · obtain ⟨bs, hbs, h⟩ := Except.bind_eq_ok.mp h
      obtain ⟨shots, -, h⟩ := Except.bind_eq_ok.mp h
      obtain ⟨bookmark, -, h⟩ := Except.bind_eq_ok.mp h
      cases h
      obtain ⟨children, hchildren, hspec⟩ := analysisChildren_spec hbs
      rw [hchildren]
      exact .inr ⟨rfl, bs, rfl, hspec⟩

/-! ## The incidents and the prose that are read off -/

/-- The incident is one of the objects of the list. -/
def Incidents.Among (incidents : Incidents) (items : List Json) : Prop :=
  (∀ fields ∈ incidents.unique, .obj fields ∈ items) ∧
    ∀ p ∈ incidents.byRef, .obj p.2 ∈ items

lemma addIncident_among {items : List Json} {acc acc' : Incidents} {incident : Json}
    (hmem : incident ∈ items) (hacc : acc.Among items)
    (h : addIncident env acc incident = .ok acc') : acc'.Among items := by
  obtain ⟨hunique, hrefs⟩ := hacc
  cases incident with
  | obj fields =>
    have hunique' : ∀ f ∈ acc.unique ++ [fields], Json.obj f ∈ items := by
      intro f hf
      rcases List.mem_append.mp hf with hf | hf
      · exact hunique f hf
      · rw [List.mem_singleton.mp hf]
        exact hmem
    have hset : ∀ (d : Dict PyStr Json.Fields) (k : PyStr),
        (∀ p ∈ d, Json.obj p.2 ∈ items) → ∀ p ∈ Dict.set d k fields, Json.obj p.2 ∈ items := by
      intro d k hd p hp
      rcases Dict.mem_set hp with rfl | hp
      · exact hmem
      · exact hd p hp
    simp only [addIncident] at h
    split at h
    · cases h
    · split at h
      · cases h
      · split at h
        · cases h
          exact ⟨hunique', hset _ _ hrefs⟩
        · split at h
          · cases h
          · cases h
            exact ⟨hunique', hset _ _ (hset _ _ hrefs)⟩
  | null | bool | int | float | str | arr => cases h

/-- The collected incidents are incidents of the snapshot. -/
lemma collectIncidents_mem {snapshot : Json.Fields} {incidents : Incidents}
    (h : collectIncidents env snapshot = .ok incidents) :
    (∀ fields ∈ incidents.unique, fields ∈ snapshotIncidents snapshot) ∧
      ∀ p ∈ incidents.byRef, p.2 ∈ snapshotIncidents snapshot := by
  obtain ⟨items, hitems, h⟩ := Except.bind_eq_ok.mp h
  have hmem : ∀ fields, Json.obj fields ∈ items → fields ∈ snapshotIncidents snapshot := by
    intro fields hf
    obtain ⟨xs, hxs, hx⟩ := Json.mem_of_iter_or hitems hf rfl
    rw [snapshotIncidents, hxs, objects]
    exact List.mem_filterMap.mpr ⟨_, hx, rfl⟩
  have hamong : incidents.Among items :=
    Except.foldlM_invariant (P := fun acc => acc.Among items)
      (fun acc x acc' hx hacc hstep => addIncident_among hx hacc hstep)
      ⟨fun _ hf => absurd hf List.not_mem_nil, fun _ hp => absurd hp List.not_mem_nil⟩ h
  exact ⟨fun f hf => hmem f (hamong.1 f hf), fun p hp => hmem p.2 (hamong.2 p hp)⟩

lemma lookupIncidents_mem {incidents : Incidents} {refs : List PyStr}
    {found : List Json.Fields} (h : lookupIncidents incidents refs = .ok found) :
    ∀ incident ∈ found, ∃ p ∈ incidents.byRef, p.2 = incident := by
  intro incident hi
  obtain ⟨ref, -, href⟩ := Except.mem_of_mapM_eq_ok h hi
  split at href
  · next f hf =>
    cases href
    exact ⟨_, Dict.mem_of_get?_eq_some hf, rfl⟩
  · cases href

lemma alertIncidents_mem {snapshot : Json.Fields} {policies : Policies} {incidents : Incidents}
    {refs : PlanRefs} {alerts : List Json.Fields}
    (hc : collectIncidents env snapshot = .ok incidents)
    (h : alertIncidents policies incidents refs = .ok alerts) :
    ∀ incident ∈ alerts, incident ∈ snapshotIncidents snapshot := by
  obtain ⟨hunique, hrefs⟩ := collectIncidents_mem hc
  intro incident hi
  unfold alertIncidents at h
  split at h
  · cases h
    exact hunique incident hi
  · obtain ⟨p, hp, rfl⟩ := lookupIncidents_mem h incident hi
    exact hrefs p hp

lemma analysisIncidents_mem {snapshot : Json.Fields} {policies : Policies}
    {incidents : Incidents} {refs : PlanRefs} {shown : List Json.Fields}
    (hc : collectIncidents env snapshot = .ok incidents)
    (h : analysisIncidents policies incidents refs = .ok shown) :
    ∀ incident ∈ shown, incident ∈ snapshotIncidents snapshot := by
  obtain ⟨hunique, hrefs⟩ := collectIncidents_mem hc
  intro incident hi
  unfold analysisIncidents at h
  split at h
  · cases h
    exact hunique incident (List.mem_filter.mp hi).1
  · obtain ⟨p, hp, rfl⟩ := lookupIncidents_mem h incident hi
    exact hrefs p hp

/-- A node of the plan adds text only to the summary. -/
lemma readPlanNode_isProse {incidents : Incidents} {acc acc' : PlanRefs} {node : Json.Fields}
    (hacc : ∀ b ∈ acc.summary, b.isProse = true)
    (h : readPlanNode env incidents acc node = .ok acc') :
    ∀ b ∈ acc'.summary, b.isProse = true := by
  have hadd : ∀ b : Block, b.isProse = true → ∀ c ∈ acc.summary ++ [b], c.isProse = true := by
    intro b hb c hc
    rcases List.mem_append.mp hc with hc | hc
    · exact hacc c hc
    · rwa [List.mem_singleton.mp hc]
  unfold readPlanNode at h
  cases hk : PlanNodeKind.ofJson? (node.get (py "type")) with
  | none =>
    rw [hk] at h
    cases h
  | some kind =>
    rw [hk] at h
    cases kind with
    | heading =>
      obtain ⟨raw, -, h⟩ := Except.bind_eq_ok.mp h
      obtain ⟨level, -, h⟩ := Except.bind_eq_ok.mp h
      split at h
      · cases h
        exact hacc
      · cases h
        exact hadd _ rfl
    | paragraph | bilingualGeneratedText | divider =>
      cases h
      exact hadd _ rfl
    | incidentReference | analysisReference =>
      obtain ⟨incident, -, h⟩ := Except.bind_eq_ok.mp h
      cases h
      exact hacc
    | pageBreak =>
      cases h
      exact hacc

/-- The summary of a plan is prose. -/
lemma readPlan_isProse {canonical : Bool} {incidents : Incidents} {plan : Json.Fields}
    {refs : PlanRefs} (h : readPlan env canonical incidents plan = .ok refs) :
    ∀ b ∈ refs.summary, b.isProse = true := by
  unfold readPlan at h
  split at h
  · obtain ⟨summary, hsummary, h⟩ := Except.bind_eq_ok.mp h
    cases h
    intro b hb
    rw [List.mem_singleton.mp hb]
    unfold narrativeSummary at hsummary
    split at hsummary
    · obtain ⟨zh, -, hsummary⟩ := Except.bind_eq_ok.mp hsummary
      obtain ⟨en, -, hsummary⟩ := Except.bind_eq_ok.mp hsummary
      cases hsummary
      rfl
    · cases hsummary
  · split at h
    · cases h
    · split at h
      · refine Except.foldlM_invariant (P := fun acc => ∀ b ∈ acc.summary, b.isProse = true)
          (fun acc node acc' _ hacc hstep => ?_) (fun _ hb => absurd hb List.not_mem_nil) h
        split at hstep
        · exact readPlanNode_isProse hacc hstep
        · cases hstep
      · cases h

/-- The prose of a plan contains no screenshot. -/
lemma readPlan_summary {canonical : Bool} {incidents : Incidents} {plan : Json.Fields}
    {refs : PlanRefs} (h : readPlan env canonical incidents plan = .ok refs) :
    blockListScreenshots refs.summary = [] :=
  blockListScreenshots_of_isProse (readPlan_isProse h)

/-! ## The whole document -/

/-- Every object that is read has its screenshot, and every screenshot its object. -/
lemma readAs_exists {raws : List Json} {shots : List Screenshot} (h : ReadAs raws shots) :
    (∀ raw ∈ raws, ∃ shot ∈ shots, shot.Matches raw) ∧
      ∀ shot ∈ shots, ∃ raw ∈ raws, shot.Matches raw := by
  induction h with
  | nil => exact ⟨fun _ h => absurd h List.not_mem_nil, fun _ h => absurd h List.not_mem_nil⟩
  | cons hxy _ ih =>
    obtain ⟨ihl, ihr⟩ := ih
    have hm := screenshotFromDict_matches hxy
    constructor
    · intro raw hraw
      rcases List.mem_cons.mp hraw with rfl | hraw
      · exact ⟨_, List.mem_cons_self, hm⟩
      · obtain ⟨shot, hshot, hs⟩ := ihl raw hraw
        exact ⟨shot, List.mem_cons_of_mem _ hshot, hs⟩
    · intro shot hshot
      rcases List.mem_cons.mp hshot with rfl | hshot
      · exact ⟨_, List.mem_cons_self, hm⟩
      · obtain ⟨raw, hraw, hr⟩ := ihr shot hshot
        exact ⟨raw, List.mem_cons_of_mem _ hraw, hr⟩

lemma incidentBlock_matches {incident : Json.Fields} {n : ℕ} {canonical : Bool} {target : Json}
    {b : Block} (h : incidentBlock env incident n canonical target = .ok b) :
    ∀ shot ∈ b.screenshots, ∃ item ∈ screenshotList incident, shot.Matches item := by
  obtain ⟨shots, hshots, h⟩ := Except.bind_eq_ok.mp h
  cases h
  exact incidentScreenshots_matches hshots

lemma frozen_of_incident {snapshot incident : Json.Fields} {shot : Screenshot}
    (hi : incident ∈ snapshotIncidents snapshot)
    (h : ∃ item ∈ screenshotList incident, shot.Matches item) :
    ∃ item ∈ frozenScreenshots snapshot, shot.Matches item := by
  obtain ⟨item, hitem, hm⟩ := h
  exact ⟨item, List.mem_flatMap.mpr ⟨incident, hi, hitem⟩, hm⟩

/-- The blocks of a report are closed exactly when the presentations of the analyses it shows
are frozen.

**Proof sketch.** The prose has no screenshots, those of the evidence blocks and of the analysis
references are in the lists of their incidents, and those of an analysis' children are read from
its presentation, one for each object in it. -/
lemma reportBlocks_closed_iff {snapshot : Json.Fields} {policies : Policies}
    {incidents : Incidents} {narrative : Bool} {refs : PlanRefs} {shown : List Json.Fields}
    {blocks : List Block} (hc : collectIncidents env snapshot = .ok incidents)
    (hsummary : blockListScreenshots refs.summary = [])
    (hshown : analysisIncidents policies incidents refs = .ok shown)
    (h : reportBlocks env policies incidents narrative refs = .ok blocks) :
    (∀ shot ∈ blockListScreenshots blocks, ∃ item ∈ frozenScreenshots snapshot,
        shot.Matches item) ↔
      ∀ incident ∈ shown, ∀ raw ∈ presentationScreenshots incident,
        ∃ item ∈ frozenScreenshots snapshot, SameReference raw item := by
  obtain ⟨alerts, halerts, h⟩ := Except.bind_eq_ok.mp h
  obtain ⟨shown', hshown', h⟩ := Except.bind_eq_ok.mp h
  rw [hshown] at hshown'
  cases hshown'
  obtain ⟨analyses, hanalyses, h⟩ := Except.bind_eq_ok.mp h
  obtain ⟨evidence, hevidence, h⟩ := Except.bind_eq_ok.mp h
  cases h
  have hnav : ∀ entries, blockListScreenshots (navigationBlocks entries) = [] := by
    intro entries
    unfold navigationBlocks
    split <;> rfl
  constructor
  · intro hclosed incident hi raw hraw
    obtain ⟨n, hn⟩ := List.getElem?_of_mem hi
    obtain ⟨p, hp, hblock⟩ :=
      Except.exists_of_mapM_eq_ok hanalyses (List.mk_mem_zipIdx_iff_getElem?.mpr hn)
    obtain ⟨-, hread⟩ := analysisBlock_screenshots hblock
    obtain ⟨shot, hshot, hm⟩ := (readAs_exists hread).1 raw hraw
    obtain ⟨item, hitem, hi⟩ := hclosed shot (by
      refine mem_blockListScreenshots.mpr ⟨.analysisReference p.1 p.2, ?_, ?_⟩
      · exact List.mem_append_right _ (List.mem_map.mpr ⟨p, hp, rfl⟩)
      · exact List.mem_append_right _ hshot)
    exact ⟨item, hitem, hm.sameReference hi⟩
  · intro hfrozen shot hshot
    simp only [List.cons_append, blockListScreenshots, Block.screenshots,
      blockListScreenshots_append, hnav, hsummary, List.nil_append, List.append_nil,
      List.mem_append] at hshot
    rcases hshot with hshot | hshot
    · obtain ⟨b, hb, hshot⟩ := mem_blockListScreenshots.mp hshot
      obtain ⟨p, hp, hblock⟩ := Except.mem_of_mapM_eq_ok hevidence hb
      exact frozen_of_incident
        (alertIncidents_mem hc halerts p.1 (List.fst_mem_of_mem_zipIdx hp))
        (incidentBlock_matches hblock shot hshot)
    · obtain ⟨b, hb, hshot⟩ := mem_blockListScreenshots.mp hshot
      obtain ⟨q, hq, rfl⟩ := List.mem_map.mp hb
      obtain ⟨p, hp, hblock⟩ := Except.mem_of_mapM_eq_ok hanalyses hq
      obtain ⟨hown, hread⟩ := analysisBlock_screenshots hblock
      have hi := List.fst_mem_of_mem_zipIdx hp
      rcases List.mem_append.mp hshot with hshot | hshot
      · exact frozen_of_incident (analysisIncidents_mem hc hshown p.1 hi) (hown shot hshot)
      · obtain ⟨raw, hraw, hm⟩ := (readAs_exists hread).2 shot hshot
        obtain ⟨item, hitem, hs⟩ := hfrozen p.1 hi raw hraw
        exact ⟨item, hitem, hm.trans_sameReference hs⟩

/-- What composing a document has gone through: what was read off the snapshot and the plan, the
incidents of the two sections, and the blocks. -/
structure Composed (env : Env) (plan snapshot : Json.Fields) (doc : ReportDocument)
    (policies : Policies) (incidents : Incidents) (refs : PlanRefs)
    (alerts shown : List Json.Fields) : Prop where
  policiesRead : readPolicies env snapshot = .ok policies
  incidentsRead : collectIncidents env snapshot = .ok incidents
  planRead : readPlan env policies.canonical incidents plan = .ok refs
  alertsFound : alertIncidents policies incidents refs = .ok alerts
  analysesFound : analysisIncidents policies incidents refs = .ok shown
  blocksBuilt : reportBlocks env policies incidents
    (Dict.contains plan (py "general_summary")) refs = .ok doc.blocks

lemma composeReport_composed {plan snapshot : Json.Fields} {doc : ReportDocument}
    (h : composeReport env (.obj plan) snapshot = .ok doc) :
    ∃ policies incidents refs alerts shown,
      Composed env plan snapshot doc policies incidents refs alerts shown := by
  obtain ⟨policies, hpolicies, h⟩ := Except.bind_eq_ok.mp h
  obtain ⟨incidents, hincidents, h⟩ := Except.bind_eq_ok.mp h
  obtain ⟨refs, hrefs, h⟩ := Except.bind_eq_ok.mp h
  obtain ⟨-, -, h⟩ := Except.bind_eq_ok.mp h
  obtain ⟨blocks, hblocks, h⟩ := Except.bind_eq_ok.mp h
  obtain ⟨date, -, h⟩ := Except.bind_eq_ok.mp h
  cases h
  obtain ⟨alerts, halerts, hrest⟩ := Except.bind_eq_ok.mp hblocks
  obtain ⟨shown, hshown, -⟩ := Except.bind_eq_ok.mp hrest
  exact ⟨policies, incidents, refs, alerts, shown, hpolicies, hincidents, hrefs, halerts, hshown,
    hblocks⟩

/-- The analyses shown are the selected ones. -/
lemma Composed.selected {plan snapshot : Json.Fields} {doc : ReportDocument} {policies : Policies}
    {incidents : Incidents} {refs : PlanRefs} {alerts shown : List Json.Fields}
    (h : Composed env plan snapshot doc policies incidents refs alerts shown) :
    selectedAnalyses env plan snapshot = .ok shown :=
  Except.bind_eq_ok.mpr ⟨policies, h.policiesRead, Except.bind_eq_ok.mpr ⟨incidents,
    h.incidentsRead, Except.bind_eq_ok.mpr ⟨refs, h.planRead, h.analysesFound⟩⟩⟩

/-- **Which documents are closed.** Every screenshot of a composed document is frozen evidence
of the snapshot if and only if every screenshot in the presentations of the analyses that the
plan selects is. -/
theorem composeReport_storageClosed_iff (env : Env) (plan snapshot : Json.Fields)
    (doc : ReportDocument) (h : composeReport env (.obj plan) snapshot = .ok doc) :
    StorageClosed snapshot doc ↔ PresentationsFrozen env plan snapshot := by
  obtain ⟨policies, incidents, refs, alerts, shown, hc⟩ := composeReport_composed h
  have hiff := reportBlocks_closed_iff hc.incidentsRead (readPlan_summary hc.planRead)
    hc.analysesFound hc.blocksBuilt
  constructor
  · intro hclosed shown' hshown' incident hi
    cases hc.selected.symm.trans hshown'
    exact hiff.mp hclosed incident hi
  · intro hfrozen
    exact hiff.mpr (hfrozen shown hc.selected)

/-- Libraries that answer as the real ones do on the snapshots below, where nothing depends on a
digest or on a date. -/
def sampleEnv : Env where
  repr := fun _ => []
  parseInt := fun _ => none
  floatComma := fun _ => []
  sha256Hex := fun _ => List.replicate 64 48
  zoneExists := fun _ => true
  fromIsoFormat := fun _ => some 1767225600000000
  localDate := fun _ _ => some (py "Thursday, 01 January 2026")

/-- A snapshot with one incident, whose analysis result is `analysis`. -/
def sampleSnapshot (analysis : Json) : Json.Fields := [
  (py "composition_profile", text "noc-daily-report-v1"),
  (py "coverage", .obj [(py "incidents", text "all"), (py "analyses", text "all_available")]),
  (py "shift_starts_at", text "2026-01-01T00:00:00+00:00"),
  (py "incidents", .arr [.obj [
    (py "id", text "i1"),
    (py "screenshots", .arr [.obj [(py "bucket", text "evidence"), (py "object_key", text "a.png")]]),
    (py "analysis_run_id", text "r1"),
    (py "analysis", analysis)]])]

/-- The plan of the daily report: a summary in two languages. -/
def samplePlan : Json.Fields :=
  [(py "general_summary", .obj [(py "zh", text "无"), (py "en", text "Nothing.")])]

/-- An analysis result whose presentation shows one stored image. -/
def presentedScreenshot (bucket key : String) : Json :=
  .obj [(py "report_presentation", .obj [(py "blocks", .arr [.obj [
    (py "type", text "screenshot"), (py "bucket", text bucket), (py "object_key", text key)]])])]

/-- A report whose presentation shows frozen evidence is closed. -/
theorem sample_storageClosed :
    ∃ doc, composeReport sampleEnv (.obj samplePlan)
        (sampleSnapshot (presentedScreenshot "evidence" "a.png")) = .ok doc ∧
      (StorageClosed (sampleSnapshot (presentedScreenshot "evidence" "a.png")) doc ↔
        PresentationsFrozen sampleEnv samplePlan
          (sampleSnapshot (presentedScreenshot "evidence" "a.png"))) :=
  ⟨_, rfl, composeReport_storageClosed_iff _ _ _ _ rfl⟩

/-- Not every composed document is closed: an analysis result can make the report show an object
of any bucket. -/
theorem composeReport_not_storageClosed :
    ¬ ∀ (env : Env) (plan snapshot : Json.Fields) (doc : ReportDocument),
      composeReport env (.obj plan) snapshot = .ok doc → StorageClosed snapshot doc := by
  intro h
  let snapshot := sampleSnapshot (presentedScreenshot "secret" "x")
  have hshown : ((composeReport sampleEnv (.obj samplePlan) snapshot).toOption.map fun doc =>
      doc.screenshots.any fun shot => shot.bucket.isText "secret") = some true := by
    decide
  have hfrozen : ((frozenScreenshots snapshot).all fun item =>
      ((item.get? (py "bucket")).getD .null).isText "evidence") = true := by
    decide
  cases hdoc : composeReport sampleEnv (.obj samplePlan) snapshot with
  | error e =>
    rw [hdoc] at hshown
    cases hshown
  | ok doc =>
    rw [hdoc] at hshown
    simp only [Except.toOption, Option.map_some, Option.some.injEq, List.any_eq_true] at hshown
    obtain ⟨shot, hshot, hsecret⟩ := hshown
    obtain ⟨item, hitem, hbucket, -⟩ := h sampleEnv samplePlan snapshot doc hdoc shot hshot
    have hevidence := List.all_eq_true.mp hfrozen item hitem
    rw [hbucket, Option.getD_some] at hevidence
    cases hb : shot.bucket with
    | str s =>
      rw [hb] at hsecret hevidence
      simp only [Json.isText, beq_iff_eq] at hsecret hevidence
      rw [hsecret] at hevidence
      exact absurd (py_inj.mp hevidence) (by decide)
    | null | bool | int | float | arr | obj =>
      rw [hb] at hsecret
      cases hsecret

end Report
