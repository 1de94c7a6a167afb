import NocReport.Report.Canonical
import NocReport.Report.Docx

set_option relaxedAutoImplicit false
set_option autoImplicit false

/-!
# The internal links of a report

The navigation of a report and the headings of its incidents lead to the analyses, and every
analysis leads back to the navigation. Composition decides what leads where, and rendering creates
the links and the bookmarks. A link to an analysis is made only for an analysis that is there; the
link back is made whether or not there is a navigation.

## Main definitions

* `Report.analysisAvailable` — the analysis of an incident can be shown.
* `Report.BackLinksLead` — when an analysis is shown, some alert leads to an analysis.

## Main results

* `Report.reportBlocks_links` — the anchors and the bookmarks of a report.
* `Report.composeReport_linksResolve_iff` — all internal links of a rendered report resolve exactly
  when the links back lead somewhere.
* `Report.composeReport_not_linksResolve` — not all links of all reports resolve.
-/

namespace Report

variable {env : Env}

lemma blockLinks_append (bs cs : List Block) :
    blockLinks (bs ++ cs) = blockLinks bs ++ blockLinks cs := by
  induction bs with
  | nil => rfl
  | cons b bs ih => rw [List.cons_append, blockLinks, ih, blockLinks, Links.append_assoc]

/-- Blocks that hold text only have no links. -/
lemma blockLinks_of_isProse {bs : List Block} (h : ∀ b ∈ bs, b.isProse = true) :
    blockLinks bs = .none := by
  induction bs with
  | nil => rfl
  | cons b bs ih =>
    have hb := h b List.mem_cons_self
    rw [blockLinks, ih fun c hc => h c (List.mem_cons_of_mem _ hc)]
    cases b with
    | heading | paragraph | divider | pageBreak | bilingualText | findList => rfl
    | metadata | link | logFileReference | screenshot | alertNavigation | bilingualFindList
    | incidentEvidence | analysisReference => cases hb

/-! ## The incidents that are found -/

/-- Every incident is found under its id. -/
def Incidents.Found (env : Env) (incidents : Incidents) : Prop :=
  ∀ incident ∈ incidents.unique, Dict.get? incidents.byRef (incidentId env incident) = some incident

lemma Incidents.Found.add {acc : Incidents} {byRef : Dict PyStr Json.Fields} {fields : Json.Fields}
    (h : acc.Found env)
    (hold : ∀ k v, Dict.get? acc.byRef k = some v → Dict.get? byRef k = some v)
    (hnew : Dict.get? byRef (incidentId env fields) = some fields) :
    Incidents.Found env ⟨acc.unique ++ [fields], byRef⟩ := by
  intro incident hincident
  rcases List.mem_append.mp hincident with hincident | hincident
  · exact hold _ _ (h incident hincident)
  · rw [List.mem_singleton.mp hincident]
    exact hnew

/-- A new key hides no old one. -/
lemma get?_set_of_not_contains {d : Dict PyStr Json.Fields} {k i : PyStr} {v w : Json.Fields}
    (hk : ¬Dict.contains d k = true) (h : Dict.get? d i = some w) :
    Dict.get? (Dict.set d k v) i = some w := by
  rw [Dict.get?_set_of_ne, h]
  rintro rfl
  apply hk
  rw [Dict.contains, h]
  rfl

lemma addIncident_found {acc acc' : Incidents} {incident : Json} (hacc : acc.Found env)
    (h : addIncident env acc incident = .ok acc') : acc'.Found env := by
  unfold addIncident at h
  split at h
  · next fields =>
    split at h
    · exact absurd h Except.throw_ne_ok
    · dsimp only at h
      split at h
      · exact absurd h Except.throw_ne_ok
      · next hid =>
        split at h
        · cases h
          exact hacc.add (fun k v => get?_set_of_not_contains hid) (Dict.get?_set_self _ _ _)
        · split at h
          · exact absurd h Except.throw_ne_ok
          · next hdisplay =>
            cases h
            refine hacc.add (fun k v hk => ?_) ?_
            · exact get?_set_of_not_contains hdisplay (get?_set_of_not_contains hid hk)
            · exact get?_set_of_not_contains hdisplay (Dict.get?_set_self _ _ _)
  · exact absurd h Except.throw_ne_ok

/-- The incidents of a snapshot are found under their ids, and nothing else is found. -/
lemma collectIncidents_found {snapshot : Json.Fields} {incidents : Incidents}
    (h : collectIncidents env snapshot = .ok incidents) :
    incidents.Found env ∧ ∀ p ∈ incidents.byRef, p.2 ∈ incidents.unique := by
  constructor
  · obtain ⟨items, -, h⟩ := Except.bind_eq_ok.mp h
    exact Except.foldlM_invariant (P := fun acc => acc.Found env)
      (fun _ _ _ _ => addIncident_found) (fun _ hi => absurd hi List.not_mem_nil) h
  · rw [(collectIncidents_spec h).1]
    exact (collectIncidents_mem h).2

/-- A plan refers to incidents of the snapshot, and to the analyses of different ones. -/
structure PlanRefs.Known (env : Env) (incidents : Incidents) (refs : PlanRefs) : Prop where
  listed : ∀ k ∈ refs.incidentRefs, ∃ incident ∈ incidents.unique, incidentId env incident = k
  nodup : (Dict.keys refs.analysisNodes).Nodup
  known : ∀ k ∈ Dict.keys refs.analysisNodes, ∃ incident ∈ incidents.unique,
    incidentId env incident = k

lemma findIncident_mem {incidents : Incidents} {ref : PyStr} {incident : Json.Fields}
    (hrefs : ∀ p ∈ incidents.byRef, p.2 ∈ incidents.unique)
    (h : findIncident incidents ref = .ok incident) : incident ∈ incidents.unique := by
  unfold findIncident at h
  split at h
  · next hget =>
    cases h
    exact hrefs _ (Dict.mem_of_get?_eq_some hget)
  · exact absurd h Except.throw_ne_ok

lemma analysisIncident_mem {incidents : Incidents} {node incident : Json.Fields}
    (hrefs : ∀ p ∈ incidents.byRef, p.2 ∈ incidents.unique)
    (h : analysisIncident env incidents node = .ok incident) : incident ∈ incidents.unique := by
  unfold analysisIncident at h
  dsimp only at h
  split at h
  · exact findIncident_mem hrefs h
  · split at h
    · next hfind =>
      cases h
      exact List.mem_of_find?_eq_some hfind
    · exact absurd h Except.throw_ne_ok

lemma readPlanNode_known {incidents : Incidents} {acc acc' : PlanRefs} {node : Json.Fields}
    (hrefs : ∀ p ∈ incidents.byRef, p.2 ∈ incidents.unique) (hacc : acc.Known env incidents)
    (h : readPlanNode env incidents acc node = .ok acc') : acc'.Known env incidents := by
  unfold readPlanNode at h
  cases hk : PlanNodeKind.ofJson? (node.get (py "type")) with
  | none =>
    rw [hk] at h
    cases h
  | some kind =>
    rw [hk] at h
    cases kind with
    | heading =>
      obtain ⟨raw, -, h⟩ := Except.bind_eq_ok.mp h
      obtain ⟨level, -, h⟩ := Except.bind_eq_ok.mp h
      split at h
      · cases h
        exact hacc
      · cases h
        exact ⟨hacc.listed, hacc.nodup, hacc.known⟩
    | paragraph | bilingualGeneratedText | divider | pageBreak =>
      cases h
      exact ⟨hacc.listed, hacc.nodup, hacc.known⟩
    | incidentReference =>
      obtain ⟨incident, hincident, h⟩ := Except.bind_eq_ok.mp h
      cases h
      refine ⟨fun k hk => ?_, hacc.nodup, hacc.known⟩
      rcases List.mem_append.mp hk with hk | hk
      · exact hacc.listed k hk
      · rw [List.mem_singleton.mp hk]
        exact ⟨incident, findIncident_mem hrefs hincident, rfl⟩
    | analysisReference =>
      obtain ⟨incident, hincident, h⟩ := Except.bind_eq_ok.mp h
      cases h
      refine ⟨hacc.listed, Dict.nodup_keys_set hacc.nodup _ _, fun k hk => ?_⟩
      rcases (Dict.mem_keys_set _ _ _ _).mp hk with rfl | hk
      · exact ⟨incident, analysisIncident_mem hrefs hincident, rfl⟩
      · exact hacc.known k hk

lemma readPlan_known {canonical : Bool} {incidents : Incidents} {plan : Json.Fields}
    {refs : PlanRefs} (hrefs : ∀ p ∈ incidents.byRef, p.2 ∈ incidents.unique)
    (h : readPlan env canonical incidents plan = .ok refs) : refs.Known env incidents := by
  have hempty : ∀ summary, PlanRefs.Known env incidents { PlanRefs.empty with summary } :=
    fun _ => ⟨fun _ hk => absurd hk List.not_mem_nil, List.nodup_nil,
      fun _ hk => absurd hk List.not_mem_nil⟩
  unfold readPlan at h
  split at h
  · obtain ⟨summary, -, h⟩ := Except.bind_eq_ok.mp h
    cases h
    exact hempty _
  · split at h
    · exact absurd h Except.throw_ne_ok
    · split at h
      · refine Except.foldlM_invariant (P := fun acc => acc.Known env incidents)
          (fun acc node acc' _ hacc hstep => ?_) (hempty _) h
        split at hstep
        · exact readPlanNode_known hrefs hacc hstep
        · exact absurd hstep Except.throw_ne_ok
      · exact absurd h Except.throw_ne_ok

/-- Incidents that are looked up by their ids. -/
lemma lookupIncidents_ids {incidents : Incidents} {refs : List PyStr} {found : List Json.Fields}
    (hfound : incidents.Found env)
    (hknown : ∀ k ∈ refs, ∃ incident ∈ incidents.unique, incidentId env incident = k)
    (h : lookupIncidents incidents refs = .ok found) : found.map (incidentId env) = refs := by
  have hall := Except.mapM_eq_ok.mp h
  clear h
  induction hall with
  | nil => rfl
  | @cons ref incident refs found hincident _ ih =>
    obtain ⟨known, hmem, rfl⟩ := hknown ref List.mem_cons_self
    rw [hfound known hmem] at hincident
    cases hincident
    rw [List.map_cons, ih fun k hk => hknown k (List.mem_cons_of_mem _ hk)]

/-- The Log Analysis section is about different incidents. -/
lemma analysisIncidents_ids {policies : Policies} {incidents : Incidents} {refs : PlanRefs}
    {shown : List Json.Fields} (hids : (incidents.unique.map (incidentId env)).Nodup)
    (hfound : incidents.Found env) (hknown : refs.Known env incidents)
    (h : analysisIncidents policies incidents refs = .ok shown) :
    (shown.map (incidentId env)).Nodup := by
  unfold analysisIncidents at h
  split at h
  · cases h
    exact hids.sublist (List.filter_sublist.map _)
  · rw [lookupIncidents_ids hfound hknown.known h]
    exact hknown.nodup

/-- The Alerts section is about different incidents. -/
lemma alertIncidents_ids {policies : Policies} {incidents : Incidents} {refs : PlanRefs}
    {alerts : List Json.Fields} (hids : (incidents.unique.map (incidentId env)).Nodup)
    (hfound : incidents.Found env) (hknown : refs.Known env incidents)
    (h : alertIncidents policies incidents refs = .ok alerts) :
    (alerts.map (incidentId env)).Nodup := by
  unfold alertIncidents at h
  split at h
  · cases h
    exact hids
  · have hlisted : ∀ k ∈ refs.incidentRefs.eraseDups,
        ∃ incident ∈ incidents.unique, incidentId env incident = k :=
      fun k hk => hknown.listed k (List.mem_eraseDups.mp hk)
    rw [lookupIncidents_ids hfound hlisted h]
    exact List.nodup_eraseDups _

/-! ## The analyses that are available -/

/-- The analysis of an incident can be shown: there is a run, and a result or a compact export. -/
def analysisAvailable (incident : Json.Fields) : Bool :=
  (incident.get (py "analysis_run_id")).truthy &&
    ((incident.get (py "analysis")).isObject ||
      (incident.get (py "report_fragment")).truthy &&
        (incident.get (py "report_fragment")).isObject)

/-- The name of the bookmark of an incident's analysis. -/
def analysisBookmark (env : Env) (incident : Json.Fields) : PyStr :=
  py "log_analysis_" ++ (env.sha256Hex (incidentId env incident)).take 24

lemma alerts_start_ne_analysisBookmark (incident : Json.Fields) :
    py "alerts_start" ≠ analysisBookmark env incident := by
  intro h
  exact absurd (congrArg List.head? h) (by decide : (some 97 : Option ℕ) ≠ some 108)

/-- A compact export is an object exactly when the incident has one or has a result. -/
lemma reportFragment_isObject {incident : Json.Fields} {fragment : Json}
    (h : reportFragment env incident = .ok fragment) :
    (fragment.isObject || (incident.get (py "analysis")).isObject) =
      ((incident.get (py "analysis")).isObject ||
        (incident.get (py "report_fragment")).truthy &&
          (incident.get (py "report_fragment")).isObject) := by
  unfold reportFragment at h
  split at h
  · next htruthy =>
    cases h
    rw [htruthy, Bool.true_and, Bool.or_comm]
  · next htruthy =>
    rw [Bool.not_eq_true] at htruthy
    rw [htruthy, Bool.false_and, Bool.or_false]
    unfold legacyFragment at h
    split at h
    · next hresult =>
      rw [hresult]
      simp [Json.isObject]
    · cases h
      rfl

/-- **The analysis block of an incident**: it is bookmarked when it is available, and its children
are prose. -/
lemma analysisBlock_available {incident : Json.Fields} {node : Option Json.Fields} {n : ℕ}
    {a : AnalysisFields × List Block} (h : analysisBlock env incident node n = .ok a) :
    a.1.available = analysisAvailable incident ∧
      a.1.bookmark =
        (if analysisAvailable incident then .str (analysisBookmark env incident) else .null) ∧
      ((∀ fields, incident.get (py "analysis") = .obj fields →
        explicitPresentation fields = none) → blockLinks a.2 = .none) := by
  obtain ⟨-, -, h⟩ := Except.bind_eq_ok.mp h
  dsimp only at h
  split at h
  · next hrun =>
    cases h
    have hnone : analysisAvailable incident = false := by
      rw [analysisAvailable, Bool.and_eq_false_iff]
      exact .inl (by simpa using hrun)
    rw [hnone]
    exact ⟨rfl, rfl, fun _ => rfl⟩
  · next hrun =>
    obtain ⟨fragment, hfragment, h⟩ := Except.bind_eq_ok.mp h
    have havailable : analysisAvailable incident =
        (fragment.isObject || (incident.get (py "analysis")).isObject) := by
      rw [analysisAvailable, reportFragment_isObject hfragment]
      simpa using fun _ => hrun
    split at h
    · next hobject =>
      cases h
      have hnone : analysisAvailable incident = false := by
        rw [havailable]
        simpa using hobject
      rw [hnone]
      exact ⟨rfl, rfl, fun _ => rfl⟩
    · next hobject =>
      obtain ⟨children, hchildren, h⟩ := Except.bind_eq_ok.mp h
      obtain ⟨screenshots, -, h⟩ := Except.bind_eq_ok.mp h
      obtain ⟨bookmark, hbookmark, h⟩ := Except.bind_eq_ok.mp h
      cases h
      have hshown : analysisAvailable incident = true := by
        rw [havailable]
        simpa [or_iff_not_imp_left] using hobject
      rw [hshown, if_pos rfl]
      refine ⟨rfl, ?_, fun hexplicit => ?_⟩
      · unfold bookmarkName at hbookmark
        split at hbookmark
        · cases hbookmark
          rfl
        · exact absurd hbookmark Except.throw_ne_ok
      · rw [blockLinks, blockLinks_of_isProse (analysisChildren_isProse hexplicit hchildren)]
        rfl

/-! ## The links of the sections -/

/-- The analyses shown are blocks of these incidents. -/
abbrev AnalysisBlocks (env : Env) (shown : List Json.Fields)
    (analyses : List (AnalysisFields × List Block)) : Prop :=
  List.Forall₂ (fun incident a => ∃ node n, analysisBlock env incident node n = .ok a)
    shown analyses

lemma analysisBlocks_of_mapM {shown : List Json.Fields}
    {node : Json.Fields × ℕ → Option Json.Fields} {number : Json.Fields × ℕ → ℕ}
    {analyses : List (AnalysisFields × List Block)}
    (h : shown.zipIdx.mapM (fun p => analysisBlock env p.1 (node p) (number p)) = .ok analyses) :
    AnalysisBlocks env shown analyses := by
  have hall : AnalysisBlocks env (shown.zipIdx.map Prod.fst) analyses :=
    List.forall₂_map_left_iff.mpr ((Except.mapM_eq_ok.mp h).imp fun p _ hp => ⟨_, _, hp⟩)
  rwa [List.zipIdx_map_fst] at hall

/-- The analyses are those of the incidents shown, and the available ones have bookmarks. -/
lemma AnalysisBlocks.ids {shown : List Json.Fields} {analyses : List (AnalysisFields × List Block)}
    (h : AnalysisBlocks env shown analyses) :
    (analyses.map fun a => a.1.incidentId) = shown.map (fun i => some (incidentId env i)) ∧
      ∀ a ∈ analyses, a.1.available = true → a.1.bookmark.truthy = true := by
  induction h with
  | nil => exact ⟨rfl, fun _ ha => absurd ha List.not_mem_nil⟩
  | @cons incident a shown analyses ha _ ih =>
    obtain ⟨node, n, ha⟩ := ha
    obtain ⟨-, hid, hbookmark⟩ := analysisBlock_spec ha
    refine ⟨by rw [List.map_cons, List.map_cons, hid, ih.1], fun b hb => ?_⟩
    rcases List.mem_cons.mp hb with rfl | hb
    · exact hbookmark
    · exact ih.2 b hb

/-- No analysis brings a presentation of its own. -/
def PlainAnalyses (incidents : List Json.Fields) : Prop :=
  ∀ incident ∈ incidents, ∀ fields, incident.get (py "analysis") = .obj fields →
    explicitPresentation fields = none

/-- The links of the Log Analysis section: each available analysis is bookmarked and leads back. -/
lemma analyses_links {shown : List Json.Fields} {analyses : List (AnalysisFields × List Block)}
    (hplain : PlainAnalyses shown) (h : AnalysisBlocks env shown analyses) :
    blockLinks (analyses.map fun a => .analysisReference a.1 a.2) =
      ⟨(shown.filter analysisAvailable).map fun _ => py "alerts_start",
        (shown.filter analysisAvailable).map (analysisBookmark env)⟩ := by
  induction h with
  | nil => rfl
  | @cons incident a shown analyses ha _ ih =>
    obtain ⟨node, n, ha⟩ := ha
    obtain ⟨havailable, hbookmark, hchildren⟩ := analysisBlock_available ha
    have hrest := ih fun i hi => hplain i (List.mem_cons_of_mem _ hi)
    rw [List.map_cons, blockLinks, hrest, Block.links, hbookmark, havailable,
      hchildren (hplain incident List.mem_cons_self)]
    cases hshown : analysisAvailable incident with
    | false => ext1 <;> simp [hshown, nameOf, Json.truthy]
    | true => ext1 <;> simp [hshown, nameOf, textOf, Json.truthy, analysisBookmark, py]

/-- The links of the evidence: each incident leads to its target. -/
lemma evidence_links {alerts : List (Json.Fields × ℕ)} {canonical : Bool}
    (target : Json.Fields → Json) {evidence : List Block}
    (h : alerts.mapM (fun p => incidentBlock env p.1 (p.2 + 1) canonical (target p.1)) =
      .ok evidence) :
    blockLinks evidence = ⟨alerts.flatMap fun p => nameOf (target p.1), []⟩ := by
  have hall := Except.mapM_eq_ok.mp h
  clear h
  induction hall with
  | nil => rfl
  | cons hb _ ih =>
    obtain ⟨screenshots, -, hb⟩ := Except.bind_eq_ok.mp hb
    cases hb
    rw [blockLinks, ih, Block.links, List.flatMap_cons]
    rfl

lemma navigationBlocks_links (entries : List NavigationEntry) :
    blockLinks (navigationBlocks entries) =
      ⟨entries.flatMap fun entry => textOf entry.target,
        if entries.isEmpty then [] else [py "alerts_start"]⟩ := by
  cases entries with
  | nil => rfl
  | cons entry entries =>
    rw [navigationBlocks, if_neg (by simp), blockLinks, blockLinks, Links.append_none, Block.links]
    rfl

/-- The available analysis of an incident is among those shown. -/
lemma availableAnalysis_bookmark {unique shown : List Json.Fields}
    {analyses : List (AnalysisFields × List Block)}
    (hids : (unique.map (incidentId env)).Nodup) (hshown : ∀ i ∈ shown, i ∈ unique)
    (h : AnalysisBlocks env shown analyses) {incident : Json.Fields} (hi : incident ∈ unique)
    (v : Json) :
    (availableAnalysis env analyses incident).map (·.bookmark) = some v ↔
      incident ∈ shown ∧ analysisAvailable incident = true ∧
        v = .str (analysisBookmark env incident) := by
  unfold availableAnalysis
  induction h with
  | nil => simp
  | @cons other a shown analyses ha _ ih =>
    obtain ⟨node, n, ha⟩ := ha
    obtain ⟨-, hid, -⟩ := analysisBlock_spec ha
    obtain ⟨havailable, hbookmark, -⟩ := analysisBlock_available ha
    have hrest := ih fun i hi => hshown i (List.mem_cons_of_mem _ hi)
    by_cases heq : other = incident
    · subst heq
      cases hother : analysisAvailable other with
      | true =>
        rw [hother] at havailable hbookmark
        simp [havailable, hid, hbookmark, eq_comm]
      | false =>
        rw [hother] at havailable hrest
        rw [List.find?_cons_of_neg (by simp [havailable]), hrest]
        simp
    · have hne : incidentId env other ≠ incidentId env incident := fun hsame =>
        heq (List.inj_on_of_nodup_map hids (hshown other List.mem_cons_self) hi hsame)
      rw [List.find?_cons_of_neg (by simp [hid, hne]), hrest]
      simp [Ne.symm heq]

/-- The alerts that lead to an analysis: the analysis is shown and available. -/
def LeadsToAnalysis (shown : List Json.Fields) (incident : Json.Fields) : Prop :=
  incident ∈ shown ∧ analysisAvailable incident = true

/-- **The links of a report.** What leads to an analysis names the bookmark of one that is shown;
each available analysis is bookmarked and leads back; and there is a navigation to lead back to
when some alert leads to an analysis.

**Proof sketch.** The targets recorded for the alerts are the bookmarks of the analyses that are
shown and available, because different incidents have different ids. -/
lemma reportBlocks_links (hrepr : ∀ v, env.repr v ≠ []) {snapshot : Json.Fields}
    {policies : Policies} {incidents : Incidents} {narrative : Bool} {refs : PlanRefs}
    {alerts shown : List Json.Fields} {blocks : List Block}
    (hc : collectIncidents env snapshot = .ok incidents)
    (hplain : PlainAnalyses (snapshotIncidents snapshot))
    (hsummary : ∀ b ∈ refs.summary, b.isProse = true)
    (hknown : refs.Known env incidents)
    (halerts : alertIncidents policies incidents refs = .ok alerts)
    (hshown : analysisIncidents policies incidents refs = .ok shown)
    (h : reportBlocks env policies incidents narrative refs = .ok blocks) :
    ∃ (leads : List PyStr) (entries : List NavigationEntry),
      blockLinks blocks =
        ⟨leads ++ (shown.filter analysisAvailable).map fun _ => py "alerts_start",
          (if entries.isEmpty then [] else [py "alerts_start"]) ++
            (shown.filter analysisAvailable).map (analysisBookmark env)⟩ ∧
      (∀ anchor ∈ leads, ∃ incident, LeadsToAnalysis shown incident ∧
        anchor = analysisBookmark env incident) ∧
      (entries ≠ [] ↔ ∃ incident ∈ alerts, LeadsToAnalysis shown incident) := by
  obtain ⟨hunique, hids, htruthy⟩ := collectIncidents_spec hc
  have hshownMem : ∀ i ∈ shown, i ∈ incidents.unique := by
    rw [hunique]
    exact analysisIncidents_mem hc hshown
  have halertsMem : ∀ i ∈ alerts, i ∈ incidents.unique := by
    rw [hunique]
    exact alertIncidents_mem hc halerts
  obtain ⟨alerts', halerts', h⟩ := Except.bind_eq_ok.mp h
  cases halerts.symm.trans halerts'
  obtain ⟨shown', hshown', h⟩ := Except.bind_eq_ok.mp h
  cases hshown.symm.trans hshown'
  obtain ⟨analyses, hanalyses, h⟩ := Except.bind_eq_ok.mp h
  obtain ⟨evidence, hevidence, h⟩ := Except.bind_eq_ok.mp h
  cases h
  have hblocks := analysisBlocks_of_mapM hanalyses
  have hdistinct : (analyses.map fun a => a.1.incidentId).Nodup := by
    have hmap := (analysisIncidents_ids hids (collectIncidents_found hc).1 hknown hshown).map
      (Option.some_injective _)
    rw [List.map_map] at hmap
    rw [hblocks.ids.1]
    exact hmap
  -- the target of an alert is the bookmark of its analysis
  have htarget : ∀ incident ∈ alerts, ∀ v,
      Dict.get? (bookmarkTargets analyses) (incidentId env incident) = some v ↔
        LeadsToAnalysis shown incident ∧ v = .str (analysisBookmark env incident) := by
    intro incident hincident v
    have hmem := halertsMem incident hincident
    rw [get?_bookmarkTargets hdistinct hblocks.ids.2 (str_ne_nil hrepr (htruthy incident hmem)),
      availableAnalysis_bookmark hids hshownMem hblocks hmem, LeadsToAnalysis, and_assoc]
  refine ⟨(navigationEntries env alerts (bookmarkTargets analyses)).flatMap
      (fun entry => textOf entry.target) ++
    alerts.zipIdx.flatMap (fun p => nameOf
      ((Dict.get? (bookmarkTargets analyses) (incidentId env p.1)).getD .null)),
    navigationEntries env alerts (bookmarkTargets analyses), ?_, ?_, ?_⟩
  · have hevidence := evidence_links (fun incident =>
      (Dict.get? (bookmarkTargets analyses) (incidentId env incident)).getD .null) hevidence
    have hanalyses := analyses_links (fun i hi => hplain i (hunique ▸ hshownMem i hi)) hblocks
    ext1 <;> simp [blockLinks_append, blockLinks, Block.links, navigationBlocks_links, hevidence,
      hanalyses, blockLinks_of_isProse hsummary]
  · intro anchor hanchor
    rcases List.mem_append.mp hanchor with hanchor | hanchor
    · obtain ⟨entry, hentry, hanchor⟩ := List.mem_flatMap.mp hanchor
      obtain ⟨p, hp, hentry⟩ := List.mem_filterMap.mp hentry
      obtain ⟨v, hv, rfl⟩ := Option.map_eq_some_iff.mp hentry
      obtain ⟨hleads, rfl⟩ := (htarget p.1 (List.fst_mem_of_mem_zipIdx hp) v).mp hv
      exact ⟨p.1, hleads, List.mem_singleton.mp hanchor⟩
    · obtain ⟨p, hp, hanchor⟩ := List.mem_flatMap.mp hanchor
      cases hv : Dict.get? (bookmarkTargets analyses) (incidentId env p.1) with
      | none =>
        rw [hv] at hanchor
        cases hanchor
      | some v =>
        obtain ⟨hleads, rfl⟩ := (htarget p.1 (List.fst_mem_of_mem_zipIdx hp) v).mp hv
        rw [hv] at hanchor
        exact ⟨p.1, hleads, List.mem_singleton.mp hanchor⟩
  · constructor
    · intro hne
      obtain ⟨entry, hentry⟩ := List.exists_mem_of_ne_nil _ hne
      obtain ⟨p, hp, hentry⟩ := List.mem_filterMap.mp hentry
      obtain ⟨v, hv, -⟩ := Option.map_eq_some_iff.mp hentry
      have hmem := List.fst_mem_of_mem_zipIdx hp
      exact ⟨p.1, hmem, ((htarget p.1 hmem v).mp hv).1⟩
    · rintro ⟨incident, hincident, hleads⟩
      obtain ⟨n, hn⟩ := List.getElem?_of_mem hincident
      have hv := (htarget incident hincident _).mpr ⟨hleads, rfl⟩
      have hentry : (⟨alertHeading env incident (n + 1) "Incident",
          .str (analysisBookmark env incident)⟩ : NavigationEntry) ∈
            navigationEntries env alerts (bookmarkTargets analyses) := by
        refine List.mem_filterMap.mpr
          ⟨(incident, n), List.mk_mem_zipIdx_iff_getElem?.mpr hn, ?_⟩
        rw [hv]
        rfl
      exact List.ne_nil_of_mem hentry

/-! ## The links of a rendered report -/

/-- The incidents that the plan and the snapshot select for the Alerts section. -/
def listedAlerts (env : Env) (plan snapshot : Json.Fields) : Except PyError (List Json.Fields) := do
  let policies ← readPolicies env snapshot
  let incidents ← collectIncidents env snapshot
  let refs ← readPlan env policies.canonical incidents plan
  alertIncidents policies incidents refs

section Composed

variable {plan snapshot : Json.Fields} {doc : ReportDocument} {policies : Policies}
  {incidents : Incidents} {refs : PlanRefs} {alerts shown : List Json.Fields}
  (h : Composed env plan snapshot doc policies incidents refs alerts shown)

include h

namespace Composed

lemma listed : listedAlerts env plan snapshot = .ok alerts :=
  Except.bind_eq_ok.mpr ⟨policies, h.policiesRead, Except.bind_eq_ok.mpr ⟨incidents,
    h.incidentsRead, Except.bind_eq_ok.mpr ⟨refs, h.planRead, h.alertsFound⟩⟩⟩

/-- The incidents of the snapshot are different. -/
lemma ids : (incidents.unique.map (incidentId env)).Nodup :=
  (collectIncidents_spec h.incidentsRead).2.1

lemma known : refs.Known env incidents :=
  readPlan_known (collectIncidents_found h.incidentsRead).2 h.planRead

lemma alerts_mem : ∀ i ∈ alerts, i ∈ incidents.unique := by
  rw [(collectIncidents_spec h.incidentsRead).1]
  exact alertIncidents_mem h.incidentsRead h.alertsFound

lemma shown_mem : ∀ i ∈ shown, i ∈ incidents.unique := by
  rw [(collectIncidents_spec h.incidentsRead).1]
  exact analysisIncidents_mem h.incidentsRead h.analysesFound

lemma alerts_ids : (alerts.map (incidentId env)).Nodup :=
  alertIncidents_ids h.ids (collectIncidents_found h.incidentsRead).1 h.known h.alertsFound

lemma shown_ids : (shown.map (incidentId env)).Nodup :=
  analysisIncidents_ids h.ids (collectIncidents_found h.incidentsRead).1 h.known h.analysesFound

end Composed

end Composed

/-- **Where the links back lead.** When an available analysis is shown, the analysis of some
incident of the Alerts section is. -/
def BackLinksLead (env : Env) (plan snapshot : Json.Fields) : Prop :=
  ∀ alerts shown, listedAlerts env plan snapshot = .ok alerts →
    selectedAnalyses env plan snapshot = .ok shown → (∃ i, LeadsToAnalysis shown i) →
      ∃ i ∈ alerts, LeadsToAnalysis shown i

/-- The truncated digests of the ids of a snapshot's incidents do not collide. -/
def CollisionFree (env : Env) (snapshot : Json.Fields) : Prop :=
  ∀ i ∈ snapshotIncidents snapshot, ∀ j ∈ snapshotIncidents snapshot,
    (env.sha256Hex (incidentId env i)).take 24 = (env.sha256Hex (incidentId env j)).take 24 →
      incidentId env i = incidentId env j

/-- Every analysis shown has a bookmark of its own. -/
lemma nodup_analysisBookmarks {snapshot : Json.Fields} {shown : List Json.Fields}
    (hfree : CollisionFree env snapshot) (hmem : ∀ i ∈ shown, i ∈ snapshotIncidents snapshot)
    (hids : (shown.map (incidentId env)).Nodup) :
    ((shown.filter analysisAvailable).map (analysisBookmark env)).Nodup := by
  refine List.Nodup.map_on (fun i hi j hj hsame => ?_) (hids.of_map.filter _)
  have hi := List.mem_of_mem_filter hi
  have hj := List.mem_of_mem_filter hj
  have hdigest := List.append_cancel_left hsame
  exact List.inj_on_of_nodup_map hids hi hj (hfree i (hmem i hi) j (hmem j hj) hdigest)

/-- Links whose leads are among the bookmarks and that lead back to a start resolve exactly when
there is a start whenever something leads back. -/
lemma links_resolve_iff {leads bookmarks : List PyStr} (backs start : ℕ) {top : PyStr}
    (htop : top ∉ bookmarks) (hnodup : bookmarks.Nodup)
    (hleads : ∀ anchor ∈ leads, anchor ∈ bookmarks) :
    (∀ anchor ∈ leads ++ List.replicate backs top,
        (List.replicate start top ++ bookmarks).count anchor = 1) ↔ (backs ≠ 0 → start = 1) := by
  have htopCount : (List.replicate start top ++ bookmarks).count top = start := by
    rw [List.count_append, List.count_replicate_self, List.count_eq_zero_of_not_mem htop]
    omega
  constructor
  · intro hall hbacks
    rw [← htopCount]
    exact hall top (List.mem_append_right _ (List.mem_replicate.mpr ⟨hbacks, rfl⟩))
  · intro hback anchor hanchor
    rcases List.mem_append.mp hanchor with hanchor | hanchor
    · have hmem := hleads anchor hanchor
      have hne : anchor ≠ top := fun h => htop (h ▸ hmem)
      have hzero : (List.replicate start top).count anchor = 0 :=
        List.count_eq_zero_of_not_mem fun h => hne (List.mem_replicate.mp h).2
      rw [List.count_append, hzero, List.count_eq_one_of_mem hnodup hmem]
    · obtain ⟨hbacks, rfl⟩ := List.mem_replicate.mp hanchor
      rw [htopCount]
      exact hback hbacks

/-- **When all internal links of a report resolve.** Let a plan be accepted for a snapshot whose
analyses bring no presentation of their own, and let the truncated digests not collide. Then every
internal hyperlink of the rendered report names a bookmark that is created exactly once if and
only if the links back to the alerts lead somewhere. -/
theorem composeReport_linksResolve_iff (env : Env) (lib : RenderEnv) (includeProvenance : Bool)
    (plan snapshot : Json.Fields) (doc : ReportDocument) (docx : Docx)
    (hrepr : ∀ v, env.repr v ≠ []) (hplain : PlainAnalyses (snapshotIncidents snapshot))
    (hfree : CollisionFree env snapshot) (h : composeReport env (.obj plan) snapshot = .ok doc)
    (hdocx : renderDocument lib includeProvenance doc = .ok docx) :
    LinksResolve docx ↔ BackLinksLead env plan snapshot := by
  obtain ⟨policies, incidents, refs, alerts, shown, hc⟩ := composeReport_composed h
  obtain ⟨leads, entries, hlinks, hleads, hentries⟩ :=
    reportBlocks_links hrepr hc.incidentsRead hplain (readPlan_isProse hc.planRead) hc.known
      hc.alertsFound hc.analysesFound hc.blocksBuilt
  have hstart : (if entries.isEmpty then [] else [py "alerts_start"]) =
      List.replicate (if entries = [] then 0 else 1) (py "alerts_start") := by
    cases entries <;> rfl
  have htop : py "alerts_start" ∉ (shown.filter analysisAvailable).map (analysisBookmark env) := by
    intro hmem
    obtain ⟨i, -, hi⟩ := List.mem_map.mp hmem
    exact alerts_start_ne_analysisBookmark i hi.symm
  have hmem : ∀ anchor ∈ leads,
      anchor ∈ (shown.filter analysisAvailable).map (analysisBookmark env) := by
    intro anchor hanchor
    obtain ⟨i, ⟨hi, havailable⟩, rfl⟩ := hleads anchor hanchor
    exact List.mem_map_of_mem (List.mem_filter.mpr ⟨hi, havailable⟩)
  have hnodup := nodup_analysisBookmarks hfree
    (analysisIncidents_mem hc.incidentsRead hc.analysesFound) hc.shown_ids
  rw [LinksResolve, renderDocument_links hdocx, hlinks, List.map_const', hstart,
    links_resolve_iff _ _ htop hnodup hmem]
  have hsome : (shown.filter analysisAvailable).length ≠ 0 ↔ ∃ i, LeadsToAnalysis shown i := by
    rw [← Nat.pos_iff_ne_zero, List.length_pos_iff_exists_mem]
    simp only [List.mem_filter, LeadsToAnalysis]
  have hlead : (if entries = [] then 0 else 1) = 1 ↔ ∃ i ∈ alerts, LeadsToAnalysis shown i := by
    rw [← hentries]
    split <;> simp_all
  rw [hsome, hlead]
  constructor
  · intro hback alerts' shown' halerts' hshown'
    cases hc.listed.symm.trans halerts'
    cases hc.selected.symm.trans hshown'
    exact hback
  · intro hback
    exact hback alerts shown hc.listed hc.selected

/-- Libraries that answer as the real ones do on the reports below, where the digits of a bookmark
are zeros and no style is named. -/
def sampleLib : RenderEnv where
  repr := fun _ => py "0"
  parseInt := fun _ => none
  floatComma := fun _ => []
  runText := fun v => match v with
    | .str s => .ok s
    | _ => .error .typeError
  paragraphStyle := fun _ => .error .keyError
  parseHex := fun _ => some 0
  casefold := id
  scaledWidth := fun _ _ => .ok 4480560
  screenshotFetcher := some ⟨fun _ _ _ _ => .ok (some [137]), fun _ _ => .ok (some [137])⟩

/-- An analysis result without a presentation. -/
def plainResult : Json := .obj [(py "summary_en", text "Nothing.")]

/-- The links of the daily report resolve when its alerts lead to the analyses. -/
theorem sample_linksResolve :
    ∃ doc docx, composeReport reprEnv (.obj samplePlan) (sampleSnapshot plainResult) = .ok doc ∧
      renderDocument sampleLib false doc = .ok docx ∧
      (LinksResolve docx ↔ BackLinksLead reprEnv samplePlan (sampleSnapshot plainResult)) :=
  ⟨_, _, rfl, rfl, composeReport_linksResolve_iff reprEnv sampleLib false samplePlan
    (sampleSnapshot plainResult) _ _ (fun _ => (by decide : py "0" ≠ []))
    (fun incident hi fields hfields => by
      rw [List.mem_singleton.mp hi] at hfields
      cases hfields
      rfl)
    (fun i hi j hj _ => by rw [List.mem_singleton.mp hi, List.mem_singleton.mp hj]) rfl rfl⟩

/-- A plan that shows an analysis and no alert. -/
def analysisOnlyPlan : Json.Fields :=
  [(py "blocks", .arr [.obj [
    (py "type", text "analysis_reference"), (py "incident_id", text "i1")]])]

/-- A snapshot without coverage policies, with one incident that has been analysed. -/
def analysedSnapshot : Json.Fields := [
  (py "shift_starts_at", text "2026-01-01T00:00:00+00:00"),
  (py "incidents", .arr [.obj [(py "id", text "i1"), (py "analysis_run_id", text "r1"),
    (py "analysis", plainResult)]])]

/-- **Not all links of all reports resolve.** The analysis of an incident that the report does not
list leads back to a navigation that is not there. -/
theorem composeReport_not_linksResolve :
    ¬ ∀ (env : Env) (lib : RenderEnv) (includeProvenance : Bool) (plan snapshot : Json.Fields)
      (doc : ReportDocument) (docx : Docx), (∀ v, env.repr v ≠ []) →
      PlainAnalyses (snapshotIncidents snapshot) → CollisionFree env snapshot →
      composeReport env (.obj plan) snapshot = .ok doc →
      renderDocument lib includeProvenance doc = .ok docx → LinksResolve docx := by
  intro hall
  obtain ⟨doc, docx, hdoc, hdocx, hanchors, hbookmarks⟩ : ∃ doc docx,
      composeReport reprEnv (.obj analysisOnlyPlan) analysedSnapshot = .ok doc ∧
        renderDocument sampleLib false doc = .ok docx ∧
        (bodyLinks docx.body).anchors = [py "alerts_start"] ∧
        (bodyLinks docx.body).bookmarks.count (py "alerts_start") = 0 :=
    ⟨_, _, rfl, rfl, rfl, by decide⟩
  have hresolve := hall reprEnv sampleLib false analysisOnlyPlan analysedSnapshot doc docx
    (fun _ => (by decide : py "0" ≠ []))
    (fun incident hi fields hfields => by
      rw [List.mem_singleton.mp hi] at hfields
      cases hfields
      rfl)
    (fun i hi j hj _ => by rw [List.mem_singleton.mp hi, List.mem_singleton.mp hj]) hdoc hdocx
    (py "alerts_start") (by simp [hanchors])
  omega

end Report
