import Mathlib.Data.List.Induction
import Mathlib.Data.List.Nodup
import NocReport.Report.Preview
import NocReport.Report.StorageClosure

set_option relaxedAutoImplicit false
set_option autoImplicit false

/-!
# The canonical daily report

With the canonical composition profile a plan contributes the two texts of the General Summary
and nothing else: everything around them is composed from the frozen snapshot. When the coverage
policies ask for all incidents and all analyses, the sections have a fixed shape.

## Main definitions

* `Report.compositionProfile` — the composition profile of a snapshot.
* `Report.summaryBlock` — the General Summary.
* `Report.Sections` — the parts of a canonical report.
* `Report.Sections.Canonical` — the shape of the parts.

## Main results

* `Report.readPlan_canonical` — what a plan contributes.
* `Report.reportBlocks_summary` — the summary stands in a frame that does not depend on it.
* `Report.composeReport_noninterference` — two plans lead to documents that differ in the summary.
* `Report.composeReport_canonical` — the shape of a canonical report.
-/

namespace Report

variable {env : Env}

/-! ## What a plan contributes -/

/-- The composition profile of a snapshot, which its coverage may name as well. -/
def compositionProfile (snapshot : Json.Fields) : Json :=
  (snapshot.get (py "composition_profile")).or
    (match (snapshot.get (py "coverage")).or (.obj []) with
      | .obj coverage => Json.Fields.get coverage (py "composition_profile")
      | _ => .null)

/-- The profile of the daily report. -/
def dailyReportProfile : Json := text "noc-daily-report-v1"

/-- A General Summary. -/
def summaryBlock (zh en : PyStr) : BilingualText :=
  ⟨.str zh, .str en, text "Chinese Summary", text "English Summary"⟩

lemma readPolicies_canonical {snapshot : Json.Fields} {policies : Policies}
    (hprofile : compositionProfile snapshot = dailyReportProfile)
    (h : readPolicies env snapshot = .ok policies) : policies.canonical = true := by
  unfold readPolicies at h
  unfold compositionProfile at hprofile
  split at h
  · next coverage hcoverage =>
    rw [hcoverage] at hprofile
    dsimp only at h hprofile
    rw [hprofile] at h
    split at h
    · rw [Except.pure_eq_ok] at h
      subst h
      rfl
    · exact absurd h Except.throw_ne_ok
  · exact absurd h Except.throw_ne_ok

lemma requiredText_eq_ok {value v : Json} {label : String} (h : requiredText value label = .ok v) :
    ∃ s, value = .str s ∧ v = .str s := by
  unfold requiredText at h
  split at h
  · next s =>
    split at h
    · exact absurd h Except.throw_ne_ok
    · rw [Except.pure_eq_ok] at h
      exact ⟨s, rfl, h.symm⟩
  · exact absurd h Except.throw_ne_ok

/-- The two texts of a plan's summary. -/
def PlanSummary (plan : Json.Fields) (zh en : PyStr) : Prop :=
  ∃ summary, plan.get (py "general_summary") = .obj summary ∧
    Json.Fields.get summary (py "zh") = .str zh ∧ Json.Fields.get summary (py "en") = .str en

/-- **What a plan contributes** to a canonical report: the texts of its summary. -/
lemma readPlan_canonical {incidents : Incidents} {plan : Json.Fields} {refs : PlanRefs}
    (h : readPlan env true incidents plan = .ok refs) :
    Dict.contains plan (py "general_summary") = true ∧ ∃ zh en, PlanSummary plan zh en ∧
      refs = { PlanRefs.empty with summary := [.bilingualText (summaryBlock zh en)] } := by
  unfold readPlan at h
  split at h
  · next hcontains =>
    obtain ⟨summary, hsummary, h⟩ := Except.bind_eq_ok.mp h
    rw [Except.pure_eq_ok] at h
    subst h
    unfold narrativeSummary at hsummary
    split at hsummary
    · next fields hfields =>
      obtain ⟨zh, hzh, hsummary⟩ := Except.bind_eq_ok.mp hsummary
      obtain ⟨en, hen, hsummary⟩ := Except.bind_eq_ok.mp hsummary
      rw [Except.pure_eq_ok] at hsummary
      subst hsummary
      obtain ⟨zh', hzh', rfl⟩ := requiredText_eq_ok hzh
      obtain ⟨en', hen', rfl⟩ := requiredText_eq_ok hen
      exact ⟨hcontains, zh', en', ⟨fields, hfields, hzh', hen'⟩, rfl⟩
    · exact absurd hsummary Except.throw_ne_ok
  · exact absurd h Except.throw_ne_ok

/-- The references of a plan that has a summary only. -/
def summaryOnly (summary : List Block) : PlanRefs := { PlanRefs.empty with summary }

/-- What composing a canonical report comes to. -/
lemma composeReport_inv {plan : Json} {snapshot : Json.Fields} {doc : ReportDocument}
    (hprofile : compositionProfile snapshot = dailyReportProfile)
    (h : composeReport env plan snapshot = .ok doc) :
    ∃ planFields policies incidents zh en date, plan = .obj planFields ∧
      readPolicies env snapshot = .ok policies ∧ policies.canonical = true ∧
      collectIncidents env snapshot = .ok incidents ∧ PlanSummary planFields zh en ∧
      reportBlocks env policies incidents true
        (summaryOnly [.bilingualText (summaryBlock zh en)]) = .ok doc.blocks ∧
      wrapValueError (reportDate env snapshot) = .ok date ∧
      doc.title = text "Daily Alert & Log Analysis Report" ∧
      doc.metadata = [⟨text "Date", date⟩, ⟨text "Shift", env.str
        ((((snapshot.get (py "shift_display_name")).or (snapshot.get (py "shift_code"))).or
          (snapshot.get (py "shift_name"))).or (text "Shift"))⟩] ∧
      doc.provenance = metadataOf env [
        ("Report Skill Snapshot", snapshot.get (py "report_skill_snapshot_id")),
        ("Report Execution Hash", snapshot.get (py "report_skill_execution_hash"))] := by
  unfold composeReport at h
  split at h
  · next planFields =>
    obtain ⟨policies, hpolicies, h⟩ := Except.bind_eq_ok.mp h
    obtain ⟨incidents, hincidents, h⟩ := Except.bind_eq_ok.mp h
    obtain ⟨refs, hrefs, h⟩ := Except.bind_eq_ok.mp h
    obtain ⟨-, -, h⟩ := Except.bind_eq_ok.mp h
    obtain ⟨blocks, hblocks, h⟩ := Except.bind_eq_ok.mp h
    obtain ⟨date, hdate, h⟩ := Except.bind_eq_ok.mp h
    rw [Except.pure_eq_ok] at h
    subst h
    have hcanonical := readPolicies_canonical hprofile hpolicies
    rw [hcanonical] at hrefs
    obtain ⟨hcontains, zh, en, hsummary, rfl⟩ := readPlan_canonical hrefs
    rw [hcontains] at hblocks
    exact ⟨planFields, policies, incidents, zh, en, date, rfl, hpolicies, hcanonical, hincidents,
      hsummary, hblocks, hdate, rfl, rfl, rfl⟩
  · exact absurd h Except.throw_ne_ok

/-! ## Noninterference -/

/-- Blocks around a General Summary. -/
def aroundSummary (before after : List Block) (zh en : PyStr) : List Block :=
  before ++ [.heading ⟨text "General Summary", 1⟩, .bilingualText (summaryBlock zh en)] ++ after

/-- **The summary stands in a frame that does not depend on it**, right below its heading. -/
lemma reportBlocks_summary {policies : Policies} {incidents : Incidents} {summary blocks : List Block}
    (h : reportBlocks env policies incidents true (summaryOnly summary) = .ok blocks) :
    ∃ before after, ∀ summary',
      reportBlocks env policies incidents true (summaryOnly summary') =
        .ok (before ++ .heading ⟨text "General Summary", 1⟩ :: (summary' ++ after)) := by
  obtain ⟨alerts, halerts, h⟩ := Except.bind_eq_ok.mp h
  obtain ⟨shown, hshown, h⟩ := Except.bind_eq_ok.mp h
  obtain ⟨analyses, hanalyses, h⟩ := Except.bind_eq_ok.mp h
  obtain ⟨evidence, hevidence, h⟩ := Except.bind_eq_ok.mp h
  refine ⟨.heading ⟨text "Alerts", 1⟩ :: navigationBlocks
      (navigationEntries env alerts (bookmarkTargets analyses)) ++ evidence ++ [.pageBreak],
    [.pageBreak, .heading ⟨text "Log Analysis", 1⟩] ++
      analyses.map fun p => .analysisReference p.1 p.2, fun summary' => ?_⟩
  refine Except.bind_eq_ok.mpr ⟨alerts, halerts, Except.bind_eq_ok.mpr ⟨shown, hshown,
    Except.bind_eq_ok.mpr ⟨analyses, hanalyses, Except.bind_eq_ok.mpr ⟨evidence, hevidence, ?_⟩⟩⟩⟩
  rw [Except.pure_eq_ok]
  simp [summaryOnly, List.append_assoc]

/-- A list of blocks is serialised like its parts, one after the other. -/
lemma blocksToJson_append (includeProvenance : Bool) (bs bs' : List Block)
    (screenshots : List Json.Fields) :
    blocksToJson includeProvenance (bs ++ bs') screenshots =
      ((blocksToJson includeProvenance bs screenshots).1 ++
          (blocksToJson includeProvenance bs'
            (blocksToJson includeProvenance bs screenshots).2).1,
        (blocksToJson includeProvenance bs'
          (blocksToJson includeProvenance bs screenshots).2).2) := by
  induction bs generalizing screenshots with
  | nil => rfl
  | cons b bs ih => simp only [List.cons_append, blocksToJson, ih]

/-- The preview of a document with a bilingual text somewhere. -/
lemma documentToPreviewJson_bilingualText {doc : ReportDocument} {before after : List Block}
    {summary : BilingualText} (hblocks : doc.blocks = before ++ .bilingualText summary :: after) :
    documentToPreviewJson doc =
      ([(py "title", doc.title), (py "metadata", .arr (doc.metadata.map metadataToJson)),
        (py "blocks", .arr ((blocksToJson false before []).1 ++ bilingualTextToJson summary ::
          (blocksToJson false after (blocksToJson false before []).2).1))],
        (blocksToJson false after (blocksToJson false before []).2).2) := by
  simp only [documentToPreviewJson, hblocks, blocksToJson_append, blocksToJson, blockToJson]

/-- **A plan interferes with nothing but the summary.** Two plans that are accepted for a snapshot
with the canonical profile lead to documents that are the same but for the two texts of the
General Summary; their payloads differ only in that block, and their private lists are the same. -/
theorem composeReport_noninterference (env : Env) (plan plan' : Json) (snapshot : Json.Fields)
    (doc doc' : ReportDocument) (hprofile : compositionProfile snapshot = dailyReportProfile)
    (h : composeReport env plan snapshot = .ok doc)
    (h' : composeReport env plan' snapshot = .ok doc') :
    (∃ before after zh en zh' en',
        doc.blocks = aroundSummary before after zh en ∧
          doc' = { doc with blocks := aroundSummary before after zh' en' }) ∧
      (∃ title metadata before after zh en zh' en',
        (documentToPreviewJson doc).1 = [title, metadata, (py "blocks",
          .arr (before ++ bilingualTextToJson (summaryBlock zh en) :: after))] ∧
        (documentToPreviewJson doc').1 = [title, metadata, (py "blocks",
          .arr (before ++ bilingualTextToJson (summaryBlock zh' en') :: after))]) ∧
      (documentToPreviewJson doc').2 = (documentToPreviewJson doc).2 := by
  obtain ⟨-, policies, incidents, zh, en, date, -, hpolicies, -, hincidents, -, hblocks, hdate,
    htitle, hmetadata, hprovenance⟩ := composeReport_inv hprofile h
  obtain ⟨-, policies', incidents', zh', en', date', -, hpolicies', -, hincidents', -, hblocks',
    hdate', htitle', hmetadata', hprovenance'⟩ := composeReport_inv hprofile h'
  rw [hpolicies] at hpolicies'
  rw [hincidents] at hincidents'
  rw [hdate] at hdate'
  cases hpolicies'
  cases hincidents'
  cases hdate'
  obtain ⟨before, after, hframe⟩ := reportBlocks_summary hblocks
  rw [hframe] at hblocks hblocks'
  have hdoc : doc.blocks = aroundSummary before after zh en := by
    simpa [aroundSummary] using (Except.ok.inj hblocks).symm
  have hdoc' : doc'.blocks = aroundSummary before after zh' en' := by
    simpa [aroundSummary] using (Except.ok.inj hblocks').symm
  have heq : doc.blocks = (before ++ [.heading ⟨text "General Summary", 1⟩]) ++
      .bilingualText (summaryBlock zh en) :: after := by
    simpa [aroundSummary] using hdoc
  have heq' : doc'.blocks = (before ++ [.heading ⟨text "General Summary", 1⟩]) ++
      .bilingualText (summaryBlock zh' en') :: after := by
    simpa [aroundSummary] using hdoc'
  refine ⟨⟨before, after, zh, en, zh', en', hdoc, ?_⟩, ?_, ?_⟩
  · rw [← hdoc', htitle, hmetadata, hprovenance, ← htitle', ← hmetadata', ← hprovenance']
  · rw [documentToPreviewJson_bilingualText heq, documentToPreviewJson_bilingualText heq',
      htitle, htitle', hmetadata, hmetadata']
    exact ⟨_, _, _, _, zh, en, zh', en', rfl, rfl⟩
  · rw [documentToPreviewJson_bilingualText heq, documentToPreviewJson_bilingualText heq']

/-- Another plan. -/
def otherPlan : Json.Fields :=
  [(py "general_summary", .obj [(py "zh", text "一切正常"), (py "en", text "All is well.")])]

/-- `composeReport_noninterference` speaks about two plans for one snapshot. -/
theorem sample_noninterference :
    ∃ doc doc',
      composeReport sampleEnv (.obj samplePlan)
          (sampleSnapshot (presentedScreenshot "evidence" "a.png")) = .ok doc ∧
        composeReport sampleEnv (.obj otherPlan)
          (sampleSnapshot (presentedScreenshot "evidence" "a.png")) = .ok doc' ∧
        (documentToPreviewJson doc').2 = (documentToPreviewJson doc).2 :=
  ⟨_, _, rfl, rfl, (composeReport_noninterference sampleEnv (.obj samplePlan) (.obj otherPlan)
    (sampleSnapshot (presentedScreenshot "evidence" "a.png")) _ _ rfl rfl rfl).2.2⟩

/-! ## The incidents -/

/-- What the loop over the incidents has collected: those it has gone through, in order, which
have ids, and different ones. -/
structure Collected (env : Env) (acc : Incidents) (items : List Json) : Prop where
  items : acc.unique.map .obj = items
  ids : (acc.unique.map (incidentId env)).Nodup
  truthy : ∀ incident ∈ acc.unique, (incident.get (py "id")).truthy = true
  keys : ∀ incident ∈ acc.unique, incidentId env incident ∈ Dict.keys acc.byRef

lemma Collected.step {acc acc' : Incidents} {items : List Json} {incident : Json}
    (h : Collected env acc items) (hstep : addIncident env acc incident = .ok acc') :
    Collected env acc' (items ++ [incident]) := by
  unfold addIncident at hstep
  split at hstep
  · next fields =>
    split at hstep
    · exact absurd hstep Except.throw_ne_ok
    · next hid =>
      dsimp only at hstep
      split at hstep
      · exact absurd hstep Except.throw_ne_ok
      · next hfree =>
        have hnew : incidentId env fields ∉ acc.unique.map (incidentId env) := by
          intro hmem
          obtain ⟨incident, hincident, heq⟩ := List.mem_map.mp hmem
          exact hfree ((Dict.contains_iff _ _).mpr (heq ▸ h.keys incident hincident))
        have hadd : ∀ byRef, (∀ k ∈ Dict.keys acc.byRef, k ∈ Dict.keys byRef) →
            incidentId env fields ∈ Dict.keys byRef →
            Collected env ⟨acc.unique ++ [fields], byRef⟩ (items ++ [.obj fields]) := by
          intro byRef hkeys hown
          refine ⟨by rw [List.map_append, h.items]; rfl, ?_, ?_, ?_⟩
          · rw [List.map_append]
            refine List.nodup_append.mpr ⟨h.ids, List.nodup_singleton _, ?_⟩
            rintro a ha b hb rfl
            exact hnew (List.mem_singleton.mp hb ▸ ha)
          · intro incident hincident
            rcases List.mem_append.mp hincident with hincident | hincident
            · exact h.truthy incident hincident
            · rw [List.mem_singleton.mp hincident]
              simpa using hid
          · intro incident hincident
            rcases List.mem_append.mp hincident with hincident | hincident
            · exact hkeys _ (h.keys incident hincident)
            · rw [List.mem_singleton.mp hincident]
              exact hown
        have hset : ∀ (d : Dict PyStr Json.Fields) k v, ∀ i ∈ Dict.keys d,
            i ∈ Dict.keys (Dict.set d k v) := fun d k v i hi =>
          (Dict.mem_keys_set d k i v).mpr (.inr hi)
        have hself : ∀ (d : Dict PyStr Json.Fields) k v, k ∈ Dict.keys (Dict.set d k v) :=
          fun d k v => (Dict.mem_keys_set d k k v).mpr (.inl rfl)
        split at hstep
        · rw [Except.pure_eq_ok] at hstep
          subst hstep
          exact hadd _ (hset _ _ _) (hself _ _ _)
        · split at hstep
          · exact absurd hstep Except.throw_ne_ok
          · rw [Except.pure_eq_ok] at hstep
            subst hstep
            exact hadd _ (fun k hk => hset _ _ _ k (hset _ _ _ k hk))
              (hset _ _ _ _ (hself _ _ _))
  · exact absurd hstep Except.throw_ne_ok

lemma Collected.foldlM {acc acc' : Incidents} {items rest : List Json}
    (h : Collected env acc items) (hloop : rest.foldlM (addIncident env) acc = .ok acc') :
    Collected env acc' (items ++ rest) := by
  induction rest generalizing acc items with
  | nil =>
    rw [List.foldlM_nil, Except.pure_eq_ok] at hloop
    rw [List.append_nil]
    exact hloop ▸ h
  | cons incident rest ih =>
    rw [List.foldlM_cons] at hloop
    obtain ⟨acc₁, hstep, hloop⟩ := Except.bind_eq_ok.mp hloop
    have hrest := ih (h.step hstep) hloop
    rwa [List.append_assoc] at hrest

/-- **The collected incidents** are those of the snapshot, in order. -/
lemma collectIncidents_spec {snapshot : Json.Fields} {incidents : Incidents}
    (h : collectIncidents env snapshot = .ok incidents) :
    incidents.unique = snapshotIncidents snapshot ∧
      (incidents.unique.map (incidentId env)).Nodup ∧
      ∀ incident ∈ incidents.unique, (incident.get (py "id")).truthy = true := by
  obtain ⟨items, hitems, h⟩ := Except.bind_eq_ok.mp h
  have hempty : Collected env ⟨[], []⟩ [] := ⟨rfl, List.nodup_nil, by simp, by simp⟩
  have hcollected := hempty.foldlM h
  rw [List.nil_append] at hcollected
  refine ⟨?_, hcollected.ids, hcollected.truthy⟩
  have hobjects : ∀ found : List Json.Fields, objects (.arr (found.map .obj)) = found := by
    intro found
    induction found with
    | nil => rfl
    | cons f found ih => simp [objects]
  rw [snapshotIncidents]
  have hiter := hcollected.items
  generalize snapshot.get (py "incidents") = v at hitems
  by_cases ht : v.truthy = true
  · rw [Json.or, if_pos ht] at hitems
    cases v with
    | arr xs =>
      cases hitems
      rw [← hiter, hobjects]
    | obj fields =>
      -- the keys of an object are texts, which are no incidents
      cases hitems
      cases fields with
      | nil => cases ht
      | cons p fields =>
        cases hu : incidents.unique with
        | nil => rw [hu] at hiter; cases hiter
        | cons f fs => rw [hu] at hiter; cases hiter
    | str s =>
      cases hitems
      cases s with
      | nil => cases ht
      | cons c s =>
        cases hu : incidents.unique with
        | nil => rw [hu] at hiter; cases hiter
        | cons f fs => rw [hu] at hiter; cases hiter
    | null | bool | int | float => cases hitems
  · rw [Json.or, if_neg ht] at hitems
    cases hitems
    rw [List.map_eq_nil_iff] at hiter
    rw [hiter]
    cases v with
    | arr xs =>
      have hnil : xs = [] := by simpa [Json.truthy] using ht
      rw [hnil]
      rfl
    | null | bool | int | float | str | obj => rfl

/-! ## The blocks of an incident -/

lemma incidentBlock_spec {incident : Json.Fields} {number : ℕ} {canonical : Bool} {target : Json}
    {b : Block} (h : incidentBlock env incident number canonical target = .ok b) :
    ∃ e, b = .incidentEvidence e ∧ e.heading = .str (alertHeading env incident number "Incident") ∧
      e.incidentId = .str (incidentId env incident) := by
  obtain ⟨screenshots, -, h⟩ := Except.bind_eq_ok.mp h
  rw [Except.pure_eq_ok] at h
  exact ⟨_, h.symm, rfl, rfl⟩

lemma analysisBlock_spec {incident : Json.Fields} {node : Option Json.Fields} {number : ℕ}
    {a : AnalysisFields × List Block} (h : analysisBlock env incident node number = .ok a) :
    a.1.heading = alertHeading env incident number "Analysis" ∧
      a.1.incidentId = some (incidentId env incident) ∧
      (a.1.available = true → a.1.bookmark.truthy = true) := by
  obtain ⟨-, -, h⟩ := Except.bind_eq_ok.mp h
  dsimp only at h
  split at h
  · rw [Except.pure_eq_ok] at h
    subst h
    exact ⟨rfl, rfl, fun ha => by cases ha⟩
  · obtain ⟨fragment, -, h⟩ := Except.bind_eq_ok.mp h
    split at h
    · rw [Except.pure_eq_ok] at h
      subst h
      exact ⟨rfl, rfl, fun ha => by cases ha⟩
    · obtain ⟨children, -, h⟩ := Except.bind_eq_ok.mp h
      obtain ⟨screenshots, -, h⟩ := Except.bind_eq_ok.mp h
      obtain ⟨bookmark, hbookmark, h⟩ := Except.bind_eq_ok.mp h
      rw [Except.pure_eq_ok] at h
      subst h
      refine ⟨rfl, rfl, fun _ => ?_⟩
      unfold bookmarkName at hbookmark
      split at hbookmark
      · rw [Except.pure_eq_ok] at hbookmark
        subst hbookmark
        rfl
      · exact absurd hbookmark Except.throw_ne_ok

/-- The available analysis of an incident among some analyses. -/
def availableAnalysis (env : Env) (analyses : List (AnalysisFields × List Block))
    (incident : Json.Fields) : Option AnalysisFields :=
  (analyses.find? fun a =>
    a.1.available && a.1.incidentId == some (incidentId env incident)).map (·.1)

/-- What the last analysis adds to the bookmarks. -/
lemma bookmarkTargets_concat (analyses : List (AnalysisFields × List Block))
    (a : AnalysisFields × List Block) :
    bookmarkTargets (analyses ++ [a]) = match a.1.incidentId with
      | some id => if a.1.available && !id.isEmpty && a.1.bookmark.truthy then
          Dict.set (bookmarkTargets analyses) id a.1.bookmark else bookmarkTargets analyses
      | none => bookmarkTargets analyses :=
  List.foldl_append

/-- The bookmark recorded for an incident is that of its available analysis. -/
lemma get?_bookmarkTargets {analyses : List (AnalysisFields × List Block)}
    (hids : (analyses.map fun a => a.1.incidentId).Nodup)
    (hbookmark : ∀ a ∈ analyses, a.1.available = true → a.1.bookmark.truthy = true)
    {incident : Json.Fields} (hne : incidentId env incident ≠ []) :
    Dict.get? (bookmarkTargets analyses) (incidentId env incident) =
      (availableAnalysis env analyses incident).map (·.bookmark) := by
  generalize hid : incidentId env incident = id at hne
  unfold availableAnalysis
  rw [hid]
  induction analyses using List.reverseRecOn with
  | nil => rfl
  | append_singleton analyses a ih =>
    rw [List.map_append, List.nodup_append] at hids
    obtain ⟨hinit, -, hlast⟩ := hids
    have hstep := ih hinit fun b hb => hbookmark b (List.mem_append_left _ hb)
    rw [bookmarkTargets_concat, List.find?_append]
    by_cases hmatch : a.1.available = true ∧ a.1.incidentId = some id
    · obtain ⟨havailable, hown⟩ := hmatch
      have hnone : analyses.find? (fun b => b.1.available && b.1.incidentId == some id) = none := by
        refine List.find?_eq_none.mpr fun b hb => ?_
        have hother : b.1.incidentId ≠ a.1.incidentId :=
          hlast _ (List.mem_map_of_mem hb) _ (List.mem_singleton_self _)
        rw [hown] at hother
        simp [hother]
      have htruthy := hbookmark a (List.mem_append_right _ (List.mem_singleton_self a)) havailable
      rw [hown, hnone]
      have hempty : id.isEmpty = false := by simpa using hne
      simp [havailable, htruthy, hempty, hown]
    · have hfind : [a].find? (fun b => b.1.available && b.1.incidentId == some id) = none := by
        refine List.find?_eq_none.mpr fun b hb => ?_
        rw [List.mem_singleton] at hb
        subst hb
        simpa using hmatch
      rw [hfind, Option.or_none, ← hstep]
      cases hown : a.1.incidentId with
      | none => rfl
      | some other =>
        dsimp only
        split
        · next hset =>
          have hne' : id ≠ other := by
            rintro rfl
            exact hmatch ⟨by simp at hset; exact hset.1.1, hown⟩
          exact Dict.get?_set_of_ne _ _ hne'
        · rfl

/-- The number of an alert is its place among the alerts. -/
lemma get?_alertNumbers {alerts : List Json.Fields} (hids : (alerts.map (incidentId env)).Nodup)
    {incident : Json.Fields} {i : ℕ} (h : alerts[i]? = some incident) :
    Dict.get? (alertNumbers env alerts) (incidentId env incident) = some (i + 1) := by
  induction alerts using List.reverseRecOn with
  | nil => cases h
  | append_singleton alerts last ih =>
    rw [List.map_append, List.nodup_append] at hids
    obtain ⟨hinit, -, hlast⟩ := hids
    have hunfold : alertNumbers env (alerts ++ [last]) =
        Dict.set (alertNumbers env alerts) (incidentId env last) (alerts.length + 1) := by
      rw [alertNumbers, List.zipIdx_append, List.foldl_append, Nat.zero_add]
      rfl
    rw [hunfold, Dict.get?_set]
    rw [List.getElem?_append] at h
    split at h
    · have hmem := List.mem_of_getElem? h
      rw [if_neg (hlast _ (List.mem_map_of_mem hmem) _ (List.mem_singleton_self _))]
      exact ih hinit h
    · have hi : i = alerts.length := by
        by_contra hne
        rw [List.getElem?_eq_none (by simp; omega)] at h
        cases h
      subst hi
      rw [Nat.sub_self] at h
      cases h
      rw [if_pos rfl]

/-! ## The sections -/

/-- The parts of a canonical report. -/
structure Sections where
  navigation : List NavigationEntry
  evidence : List IncidentEvidence
  summary : BilingualText
  analyses : List (AnalysisFields × List Block)

/-- The blocks of a canonical report, section by section. -/
def Sections.blocks (s : Sections) : List Block :=
  .heading ⟨text "Alerts", 1⟩ :: navigationBlocks s.navigation ++
    s.evidence.map .incidentEvidence ++
    [.pageBreak, .heading ⟨text "General Summary", 1⟩, .bilingualText s.summary, .pageBreak,
      .heading ⟨text "Log Analysis", 1⟩] ++
    s.analyses.map fun a => .analysisReference a.1 a.2

/-- The shape of the parts of a canonical report with all incidents and all analyses. -/
structure Sections.Canonical (env : Env) (plan snapshot : Json.Fields) (s : Sections) : Prop where
  /-- the incidents of the snapshot are different -/
  incidents : ((snapshotIncidents snapshot).map (incidentId env)).Nodup
  /-- each incident has one block, in order and numbered from one -/
  evidence : List.Forall₂ (fun (p : Json.Fields × ℕ) (e : IncidentEvidence) =>
      e.heading = .str (alertHeading env p.1 (p.2 + 1) "Incident") ∧
        e.incidentId = .str (incidentId env p.1))
    (snapshotIncidents snapshot).zipIdx s.evidence
  /-- each incident with an analysis run has one analysis reference, in order and with the number
  of its block -/
  analyses : List.Forall₂ (fun (p : Json.Fields × ℕ) (a : AnalysisFields × List Block) =>
      a.1.heading = alertHeading env p.1 (p.2 + 1) "Analysis" ∧
        a.1.incidentId = some (incidentId env p.1))
    ((snapshotIncidents snapshot).zipIdx.filter fun p =>
      (p.1.get (py "analysis_run_id")).truthy) s.analyses
  /-- the navigation lists the incidents whose analysis is available, in order -/
  navigation : s.navigation = (snapshotIncidents snapshot).zipIdx.filterMap fun p =>
    (availableAnalysis env s.analyses p.1).map fun a =>
      ⟨alertHeading env p.1 (p.2 + 1) "Incident", a.bookmark⟩
  /-- the summary is the plan's -/
  summary : ∃ zh en, PlanSummary plan zh en ∧ s.summary = summaryBlock zh en

/-- `str` of a value that is not empty is not empty. -/
lemma str_ne_nil (hrepr : ∀ v, env.repr v ≠ []) {v : Json} (hv : v.truthy = true) :
    env.str v ≠ [] := by
  cases v with
  | null => cases hv
  | bool b =>
    cases b with
    | false => cases hv
    | true => exact (by decide : py "True" ≠ [])
  | int i =>
    have hdigits : PyStr.ofNat i.natAbs ≠ [] := by
      simp [PyStr.ofNat, Nat.toDigits_ne_nil]
    simp [PyRuntime.str, PyStr.ofInt, hdigits]
  | str s =>
    have hs : s ≠ [] := by simpa [Json.truthy] using hv
    exact hs
  | float f => exact hrepr _
  | arr xs => exact hrepr _
  | obj fields => exact hrepr _

/-- The blocks of all alerts, in order. -/
lemma evidence_spec {alerts : List (Json.Fields × ℕ)} {canonical : Bool}
    (target : Json.Fields → Json) {evidence : List Block}
    (h : alerts.mapM (fun p => incidentBlock env p.1 (p.2 + 1) canonical (target p.1)) =
      .ok evidence) :
    ∃ es : List IncidentEvidence, evidence = es.map .incidentEvidence ∧
      List.Forall₂ (fun (p : Json.Fields × ℕ) (e : IncidentEvidence) =>
        e.heading = .str (alertHeading env p.1 (p.2 + 1) "Incident") ∧
          e.incidentId = .str (incidentId env p.1)) alerts es := by
  have hall := Except.mapM_eq_ok.mp h
  clear h
  induction hall with
  | nil => exact ⟨[], rfl, .nil⟩
  | cons hb _ ih =>
    obtain ⟨es, rfl, hes⟩ := ih
    obtain ⟨e, rfl, he⟩ := incidentBlock_spec hb
    exact ⟨e :: es, rfl, .cons he hes⟩

/-- The analyses shown, each with the number of its alert. -/
lemma analyses_spec {alerts : List Json.Fields} (hids : (alerts.map (incidentId env)).Nodup)
    {shown : Json.Fields → Bool} {analyses : List (AnalysisFields × List Block)}
    (h : (alerts.filter shown).zipIdx.mapM (fun p => analysisBlock env p.1
      (planNodeFor env true (summaryOnly []) p.1)
      ((Dict.get? (alertNumbers env alerts) (incidentId env p.1)).getD (p.2 + 1))) =
        .ok analyses) :
    List.Forall₂ (fun (p : Json.Fields × ℕ) (a : AnalysisFields × List Block) =>
        (a.1.heading = alertHeading env p.1 (p.2 + 1) "Analysis" ∧
          a.1.incidentId = some (incidentId env p.1)) ∧
          (a.1.available = true → a.1.bookmark.truthy = true))
      (alerts.zipIdx.filter fun p => shown p.1) analyses := by
  have hall : List.Forall₂ (fun (incident : Json.Fields) (a : AnalysisFields × List Block) =>
      ∃ k, analysisBlock env incident (planNodeFor env true (summaryOnly []) incident)
        ((Dict.get? (alertNumbers env alerts) (incidentId env incident)).getD k) = .ok a)
      ((alerts.filter shown).zipIdx.map Prod.fst) analyses :=
    List.forall₂_map_left_iff.mpr ((Except.mapM_eq_ok.mp h).imp fun p _ hp => ⟨p.2 + 1, hp⟩)
  have hfilter : (alerts.filter shown).zipIdx.map Prod.fst =
      (alerts.zipIdx.filter fun p => shown p.1).map Prod.fst := by
    rw [List.zipIdx_map_fst]
    have hmap := List.filter_map (f := Prod.fst) (p := shown) (l := alerts.zipIdx)
    rw [List.zipIdx_map_fst] at hmap
    exact hmap
  rw [hfilter, List.forall₂_map_left_iff] at hall
  have hmem : ∀ p ∈ alerts.zipIdx.filter fun p => shown p.1, alerts[p.2]? = some p.1 :=
    fun p hp => List.mem_zipIdx_iff_getElem?.mp (List.mem_filter.mp hp).1
  refine ((List.forall₂_and_left _ _).mpr ⟨hmem, hall⟩).imp ?_
  rintro ⟨incident, i⟩ a ⟨hi, k, ha⟩
  rw [get?_alertNumbers hids hi] at ha
  obtain ⟨hheading, hid, hbookmark⟩ := analysisBlock_spec ha
  exact ⟨⟨hheading, hid⟩, hbookmark⟩

/-- The analyses are those of different incidents, and the available ones have bookmarks. -/
lemma analyses_ids {alerts : List Json.Fields} (hids : (alerts.map (incidentId env)).Nodup)
    (shown : Json.Fields → Bool) {analyses : List (AnalysisFields × List Block)}
    (h : List.Forall₂ (fun (p : Json.Fields × ℕ) (a : AnalysisFields × List Block) =>
        (a.1.heading = alertHeading env p.1 (p.2 + 1) "Analysis" ∧
          a.1.incidentId = some (incidentId env p.1)) ∧
          (a.1.available = true → a.1.bookmark.truthy = true))
      (alerts.zipIdx.filter fun p => shown p.1) analyses) :
    (analyses.map fun a => a.1.incidentId).Nodup ∧
      ∀ a ∈ analyses, a.1.available = true → a.1.bookmark.truthy = true := by
  refine ⟨?_, fun a ha => ?_⟩
  · have hmap : analyses.map (fun a => a.1.incidentId) =
        (alerts.zipIdx.filter fun p => shown p.1).map fun p => some (incidentId env p.1) :=
      (List.forall₂_eq_eq_eq ▸ List.forall₂_map_left_iff.mpr
        (List.forall₂_map_right_iff.mpr (h.imp fun _ _ ha => ha.1.2.symm)) :
        (alerts.zipIdx.filter fun p => shown p.1).map (fun p => some (incidentId env p.1)) =
          analyses.map fun a => a.1.incidentId).symm
    have hsome : ((alerts.map (incidentId env)).map some).Nodup :=
      hids.map (Option.some_injective _)
    have hzip : (alerts.map (incidentId env)).map some =
        alerts.zipIdx.map fun p => some (incidentId env p.1) := by
      conv_lhs => rw [← List.zipIdx_map_fst 0 alerts, List.map_map, List.map_map]
      rfl
    rw [hmap]
    exact (hzip ▸ hsome).sublist (List.filter_sublist.map _)
  · generalize (alerts.zipIdx.filter fun p => shown p.1) = numbered at h
    induction h with
    | nil => cases ha
    | cons hb _ ih =>
      rcases List.mem_cons.mp ha with rfl | ha
      · exact hb.2
      · exact ih ha

/-- The policies of a snapshot whose coverage asks for all incidents and all analyses. -/
lemma readPolicies_coverage {snapshot : Json.Fields} {policies : Policies}
    (hcoverage : ∃ coverage, snapshot.get (py "coverage") = .obj coverage ∧
      Json.Fields.get coverage (py "incidents") = text "all" ∧
      Json.Fields.get coverage (py "analyses") = text "all_available")
    (h : readPolicies env snapshot = .ok policies) :
    policies.incidents.isText "all" = true ∧ policies.analyses.isText "all_available" = true := by
  obtain ⟨coverage, hfield, hincidents, hanalyses⟩ := hcoverage
  have htruthy : (Json.obj coverage).truthy = true := by
    cases coverage with
    | nil => cases hincidents
    | cons _ _ => rfl
  have hpresent : ∀ {key : PyStr} {s : String}, Json.Fields.get coverage key = text s →
      ∀ d, Json.Fields.getD coverage key d = text s := by
    intro key s hget d
    unfold Json.Fields.get Json.Fields.getD at hget
    unfold Json.Fields.getD
    cases hvalue : Dict.get? coverage key with
    | none => rw [hvalue] at hget; cases hget
    | some v => rw [hvalue] at hget; exact hget
  unfold readPolicies at h
  rw [hfield, Json.or, if_pos htruthy] at h
  dsimp only at h
  split at h
  · rw [Except.pure_eq_ok] at h
    subst h
    dsimp only
    rw [hpresent hincidents, hpresent hanalyses]
    exact ⟨by decide, by decide⟩
  · exact absurd h Except.throw_ne_ok

/-- **The shape of a canonical report.** For every snapshot with the canonical profile whose
coverage asks for all incidents and all available analyses, and every plan that is accepted, the
blocks of the document are those of sections of the canonical shape. -/
theorem composeReport_canonical (env : Env) (hrepr : ∀ v, env.repr v ≠ []) (plan : Json.Fields)
    (snapshot : Json.Fields) (doc : ReportDocument)
    (hprofile : compositionProfile snapshot = dailyReportProfile)
    (hcoverage : ∃ coverage, snapshot.get (py "coverage") = .obj coverage ∧
      Json.Fields.get coverage (py "incidents") = text "all" ∧
      Json.Fields.get coverage (py "analyses") = text "all_available")
    (h : composeReport env (.obj plan) snapshot = .ok doc) :
    ∃ s : Sections, s.Canonical env plan snapshot ∧ doc.blocks = s.blocks := by
  obtain ⟨planFields, policies, incidents, zh, en, -, hplan, hpolicies, -, hincidents, hsummary,
    hblocks, -⟩ := composeReport_inv hprofile h
  cases hplan
  obtain ⟨hall, havailable⟩ := readPolicies_coverage hcoverage hpolicies
  obtain ⟨hunique, hids, htruthy⟩ := collectIncidents_spec hincidents
  rw [hunique] at hids htruthy
  obtain ⟨alerts, halerts, hblocks⟩ := Except.bind_eq_ok.mp hblocks
  obtain ⟨shown, hshown, hblocks⟩ := Except.bind_eq_ok.mp hblocks
  obtain ⟨analyses, hanalyses, hblocks⟩ := Except.bind_eq_ok.mp hblocks
  obtain ⟨evidence, hevidence, hblocks⟩ := Except.bind_eq_ok.mp hblocks
  rw [Except.pure_eq_ok] at hblocks
  rw [alertIncidents, if_pos hall, Except.pure_eq_ok, hunique] at halerts
  rw [analysisIncidents, if_pos havailable, Except.pure_eq_ok, hunique] at hshown
  subst halerts hshown
  have hreferences := analyses_spec hids hanalyses
  obtain ⟨es, rfl, hes⟩ := evidence_spec (fun incident =>
    (Dict.get? (bookmarkTargets analyses) (incidentId env incident)).getD .null) hevidence
  have hown := analyses_ids hids (fun incident => (incident.get (py "analysis_run_id")).truthy)
    hreferences
  refine ⟨⟨(snapshotIncidents snapshot).zipIdx.filterMap fun p =>
      (availableAnalysis env analyses p.1).map fun a =>
        ⟨alertHeading env p.1 (p.2 + 1) "Incident", a.bookmark⟩, es, summaryBlock zh en, analyses⟩,
    ⟨?_, ?_, ?_, ?_, zh, en, ?_, ?_⟩, ?_⟩
  · exact hids
  · exact hes
  · exact hreferences.imp fun _ _ ha => ha.1
  · rfl
  · exact hsummary
  · rfl
  have hnavigation : navigationEntries env (snapshotIncidents snapshot) (bookmarkTargets analyses) =
      (snapshotIncidents snapshot).zipIdx.filterMap fun p =>
        (availableAnalysis env analyses p.1).map fun a =>
          ⟨alertHeading env p.1 (p.2 + 1) "Incident", a.bookmark⟩ := by
    refine List.filterMap_congr fun p hp => ?_
    have hmem : p.1 ∈ snapshotIncidents snapshot := List.fst_mem_of_mem_zipIdx hp
    rw [get?_bookmarkTargets hown.1 hown.2 (str_ne_nil hrepr (htruthy p.1 hmem)), Option.map_map]
    rfl
  rw [← hblocks, hnavigation]
  simp [Sections.blocks, summaryOnly]

/-- An environment in which every value has a representation. -/
def reprEnv : Env := { sampleEnv with repr := fun _ => py "0" }

/-- `composeReport_canonical` speaks about the sample. -/
theorem sample_canonical :
    ∃ doc, composeReport reprEnv (.obj samplePlan)
        (sampleSnapshot (presentedScreenshot "evidence" "a.png")) = .ok doc ∧
      ∃ s : Sections, s.Canonical reprEnv samplePlan
        (sampleSnapshot (presentedScreenshot "evidence" "a.png")) ∧ doc.blocks = s.blocks :=
  ⟨_, rfl, composeReport_canonical reprEnv (fun _ => (by decide : py "0" ≠ [])) samplePlan
    (sampleSnapshot (presentedScreenshot "evidence" "a.png")) _ rfl ⟨_, rfl, rfl, rfl⟩ rfl⟩

end Report
