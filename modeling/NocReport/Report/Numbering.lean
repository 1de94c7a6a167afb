import NocReport.Foundation.JsonNumbers
import NocReport.Report.Links

set_option relaxedAutoImplicit false
set_option autoImplicit false

/-!
# The numbers of the alerts

Composition numbers the alerts by their place in the Alerts section, and labels an analysis with
the number of its alert. An analysis whose incident is not among the alerts gets its own place in
the Log Analysis section for a number, which may be the number of another incident's alert.

## Main definitions

* `Report.HeadingNumber` — the number that a heading of the form `Alert #n - title` gives.
* `Report.documentLabels` — the headings of incidents in a document, at any depth, with the
  incidents they are about.
* `Report.NumbersAgree` — no number labels two incidents.
* `Report.NumbersFit` — when the numbers given out do not meet.

## Main results

* `Report.mem_documentLabels` — the labels of a composed document.
* `Report.composeReport_numbersAgree_iff` — the numbers of a composed document agree exactly when
  the numbers given out do not meet.
* `Report.composeReport_not_numbersAgree` — the numbers of not all composed documents agree.
-/

namespace Report

variable {env : Env}

/-! ## Labels -/

/-- The heading labels its block `Alert #n`. -/
def HeadingNumber (heading : Json) (n : ℕ) : Prop :=
  ∃ title, heading = .str (py "Alert #" ++ .ofNat n ++ py " - " ++ title)

/-- The heading of a block about an incident, and the incident when the block names one. -/
structure Label where
  heading : Json
  incident : Option PyStr

/-- The label of a block about an incident. -/
def Block.label? (env : Env) : Block → Option Label
  | .incidentEvidence b => some ⟨b.heading, strOrNone env.toPyRuntime b.incidentId⟩
  | .analysisReference b _ => some ⟨.str b.heading, b.incidentId⟩
  | _ => none

/-- The labels in a list of blocks, at any depth. -/
def blockListLabels (env : Env) (bs : List Block) : List Label :=
  (blockListParts bs).filterMap (Block.label? env)

/-- The labels in a document, at any depth. -/
def documentLabels (env : Env) (doc : ReportDocument) : List Label := blockListLabels env doc.blocks

/-- **The numbers of a document agree.** -/
structure NumbersAgree (env : Env) (doc : ReportDocument) : Prop where
  /-- an analysis is about the incident whose alert has its number -/
  analyses : ∀ e a children n, .incidentEvidence e ∈ doc.blocks →
    .analysisReference a children ∈ doc.blocks → HeadingNumber e.heading n →
    HeadingNumber (.str a.heading) n → a.incidentId = strOrNone env.toPyRuntime e.incidentId
  /-- no number labels two incidents, anywhere in the document -/
  labels : ∀ l ∈ documentLabels env doc, ∀ l' ∈ documentLabels env doc, ∀ n,
    HeadingNumber l.heading n → HeadingNumber l'.heading n →
    ∀ id ∈ l.incident, ∀ id' ∈ l'.incident, id = id'

/-- The labels that the stored presentations of the analyses bring. -/
def presentationLabels (env : Env) (shown : List Json.Fields) : List Label :=
  shown.flatMap fun incident => blockListLabels env (analysisPresentation env incident)

/-- The incident is given the number: it is the number of its place among the alerts, or, when
it has no alert, of its place among the analyses. -/
def NumberOf (env : Env) (alerts shown : List Json.Fields) (id : PyStr) (n : ℕ) : Prop :=
  ∃ i incident, n = i + 1 ∧ incidentId env incident = id ∧
    (alerts[i]? = some incident ∨ shown[i]? = some incident ∧ incident ∉ alerts)

/-- **When the numbers given out do not meet.** -/
structure NumbersFit (env : Env) (alerts shown : List Json.Fields) : Prop where
  /-- an analysis without an alert comes after as many analyses as there are alerts -/
  places : ∀ i incident, shown[i]? = some incident → incident ∉ alerts → alerts.length ≤ i
  /-- no presentation uses the number of an incident for another one -/
  given : ∀ l ∈ presentationLabels env shown, ∀ n, HeadingNumber l.heading n →
    ∀ id ∈ l.incident, ∀ id', NumberOf env alerts shown id' n → id = id'
  /-- no two presentations use a number for two incidents -/
  brought : ∀ l ∈ presentationLabels env shown, ∀ l' ∈ presentationLabels env shown, ∀ n,
    HeadingNumber l.heading n → HeadingNumber l'.heading n →
    ∀ id ∈ l.incident, ∀ id' ∈ l'.incident, id = id'

lemma blockListLabels_append (bs cs : List Block) :
    blockListLabels env (bs ++ cs) = blockListLabels env bs ++ blockListLabels env cs := by
  rw [blockListLabels, blockListParts_append, List.filterMap_append]
  rfl

/-- Blocks that hold text only are not about an incident. -/
lemma blockListLabels_of_isProse {bs : List Block} (h : ∀ b ∈ bs, b.isProse = true) :
    blockListLabels env bs = [] := by
  rw [blockListLabels, blockListParts_of_isProse h, List.filterMap_eq_nil_iff]
  intro b hb
  have hprose := h b hb
  cases b with
  | heading | paragraph | divider | pageBreak | bilingualText | findList => rfl
  | metadata | link | logFileReference | screenshot | alertNavigation | bilingualFindList
  | incidentEvidence | analysisReference => cases hprose

@[simp]
lemma blockListLabels_heading (b : Heading) (bs : List Block) :
    blockListLabels env (.heading b :: bs) = blockListLabels env bs := rfl

@[simp]
lemma blockListLabels_pageBreak (bs : List Block) :
    blockListLabels env (.pageBreak :: bs) = blockListLabels env bs := rfl

lemma navigationBlocks_labels (entries : List NavigationEntry) :
    blockListLabels env (navigationBlocks entries) = [] := by
  unfold navigationBlocks
  split <;> rfl

/-! ## The numbers of headings -/

/-- A number that is followed by a blank can be read off. -/
lemma takeWhile_ofNat (n : ℕ) (rest : PyStr) :
    (PyStr.ofNat n ++ py " - " ++ rest).takeWhile PyJson.isDecimal = PyStr.ofNat n := by
  have hdigits : ∀ c ∈ PyStr.ofNat n, PyJson.isDecimal c = true :=
    fun _ hc => PyJson.isDecimal_of_mem_ofNat hc
  have hblank : (py " - " ++ rest).takeWhile PyJson.isDecimal = [] := rfl
  rw [List.append_assoc, List.takeWhile_append_of_pos hdigits, hblank, List.append_nil]

/-- The heading of an alert or an analysis gives its number, and no other. -/
lemma headingNumber_alertHeading {incident : Json.Fields} {number : ℕ} {fallback : String}
    {n : ℕ} :
    HeadingNumber (.str (alertHeading env incident number fallback)) n ↔ n = number := by
  constructor
  · rintro ⟨title, h⟩
    have htext := Json.str.inj h
    simp only [alertHeading, List.append_assoc] at htext
    have hdigits := congrArg (List.takeWhile PyJson.isDecimal) (List.append_cancel_left htext)
    simp only [← List.append_assoc, takeWhile_ofNat] at hdigits
    have hvalue := congrArg PyJson.decimalValue hdigits
    rw [PyJson.decimalValue_ofNat, PyJson.decimalValue_ofNat] at hvalue
    exact hvalue.symm
  · rintro rfl
    exact ⟨_, rfl⟩

/-- An incident that has no alert has no number among the alerts. -/
lemma get?_alertNumbers_of_notMem {alerts : List Json.Fields} {id : PyStr}
    (h : id ∉ alerts.map (incidentId env)) : Dict.get? (alertNumbers env alerts) id = none := by
  induction alerts using List.reverseRecOn with
  | nil => rfl
  | append_singleton alerts last ih =>
    have hunfold : alertNumbers env (alerts ++ [last]) =
        Dict.set (alertNumbers env alerts) (incidentId env last) (alerts.length + 1) := by
      rw [alertNumbers, List.zipIdx_append, List.foldl_append, Nat.zero_add]
      rfl
    simp only [List.map_append, List.mem_append, not_or] at h
    obtain ⟨hinit, hlast⟩ := h
    have hne : id ≠ incidentId env last := by simpa using hlast
    rw [hunfold, Dict.get?_set_of_ne _ _ hne]
    exact ih hinit

/-- The number that the analysis in place `i` is labelled with. -/
def analysisNumber (env : Env) (alerts : List Json.Fields) (incident : Json.Fields) (i : ℕ) : ℕ :=
  (Dict.get? (alertNumbers env alerts) (incidentId env incident)).getD (i + 1)

section Numbers

variable {unique alerts shown : List Json.Fields} (hids : (unique.map (incidentId env)).Nodup)
  (hmem : ∀ a ∈ alerts, a ∈ unique) (hshown : ∀ s ∈ shown, s ∈ unique)

include hids hmem hshown

/-- An analysis without an alert is labelled with its own place. -/
lemma analysisNumber_of_notMem {incident : Json.Fields} {i : ℕ} (hi : shown[i]? = some incident)
    (ha : incident ∉ alerts) : analysisNumber env alerts incident i = i + 1 := by
  have hid : incidentId env incident ∉ alerts.map (incidentId env) := by
    intro hsame
    obtain ⟨a, hamem, hsame⟩ := List.mem_map.mp hsame
    apply ha
    rw [← List.inj_on_of_nodup_map hids (hmem a hamem)
      (hshown incident (List.mem_of_getElem? hi)) hsame]
    exact hamem
  rw [analysisNumber, get?_alertNumbers_of_notMem hid]
  rfl

/-- The number of an analysis is given to its incident. -/
lemma numberOf_analysisNumber (halerts : (alerts.map (incidentId env)).Nodup)
    {incident : Json.Fields} {i : ℕ} (hi : shown[i]? = some incident) :
    NumberOf env alerts shown (incidentId env incident) (analysisNumber env alerts incident i) := by
  by_cases ha : incident ∈ alerts
  · obtain ⟨j, hj⟩ := List.getElem?_of_mem ha
    rw [analysisNumber, get?_alertNumbers halerts hj]
    exact ⟨j, incident, rfl, rfl, .inl hj⟩
  · rw [analysisNumber_of_notMem hids hmem hshown hi ha]
    exact ⟨i, incident, rfl, rfl, .inr ⟨hi, ha⟩⟩

/-- No number is given to two incidents exactly when the analyses without an alert come late
enough. -/
lemma numberOf_unique_iff :
    (∀ id id' n, NumberOf env alerts shown id n → NumberOf env alerts shown id' n → id = id') ↔
      ∀ i incident, shown[i]? = some incident → incident ∉ alerts → alerts.length ≤ i := by
  constructor
  · intro hunique i incident hi ha
    by_contra hlt
    obtain ⟨alert, halert⟩ : ∃ alert, alerts[i]? = some alert :=
      ⟨_, List.getElem?_eq_getElem (by omega)⟩
    have hsame := hunique _ _ (i + 1) ⟨i, incident, rfl, rfl, .inr ⟨hi, ha⟩⟩
      ⟨i, alert, rfl, rfl, .inl halert⟩
    have halertMem := List.mem_of_getElem? halert
    apply ha
    rw [List.inj_on_of_nodup_map hids (hshown incident (List.mem_of_getElem? hi))
      (hmem alert halertMem) hsame]
    exact halertMem
  · rintro hplaces id id' n ⟨i, incident, rfl, rfl, hi⟩ ⟨j, other, hj, rfl, hother⟩
    obtain rfl : i = j := by omega
    rcases hi with hi | ⟨hi, hnew⟩ <;> rcases hother with hother | ⟨hother, hnew'⟩
    · rw [Option.some.inj (hi.symm.trans hother)]
    · have hlate := hplaces i other hother hnew'
      rw [List.getElem?_eq_none hlate] at hi
      cases hi
    · have hlate := hplaces i incident hi hnew
      rw [List.getElem?_eq_none hlate] at hother
      cases hother
    · rw [Option.some.inj (hi.symm.trans hother)]

end Numbers

/-! ## The labels of a report -/

/-- The labels of the evidence. -/
lemma evidence_labels {alerts : List (Json.Fields × ℕ)} {canonical : Bool}
    (target : Json.Fields → Json) {evidence : List Block}
    (h : alerts.mapM (fun p => incidentBlock env p.1 (p.2 + 1) canonical (target p.1)) =
      .ok evidence) :
    blockListLabels env evidence = alerts.map fun p =>
      ⟨.str (alertHeading env p.1 (p.2 + 1) "Incident"), some (incidentId env p.1)⟩ := by
  have hall := Except.mapM_eq_ok.mp h
  clear h
  induction hall with
  | nil => rfl
  | @cons p b alerts evidence hb _ ih =>
    obtain ⟨e, rfl, hheading, hid⟩ := incidentBlock_spec hb
    have hcons : blockListLabels env (.incidentEvidence e :: evidence) =
        ⟨e.heading, strOrNone env.toPyRuntime e.incidentId⟩ :: blockListLabels env evidence := rfl
    rw [hcons, ih, hheading, hid]
    rfl

/-- The label of an analysis, and those in its presentation. -/
lemma analysisBlock_labels {incident : Json.Fields} {node : Option Json.Fields} {n : ℕ}
    {a : AnalysisFields × List Block} (h : analysisBlock env incident node n = .ok a)
    (rest : List Block) :
    blockListLabels env (.analysisReference a.1 a.2 :: rest) =
      ⟨.str (alertHeading env incident n "Analysis"), some (incidentId env incident)⟩ ::
        blockListLabels env (analysisPresentation env incident) ++ blockListLabels env rest := by
  obtain ⟨hheading, hid, -⟩ := analysisBlock_spec h
  have hcons : blockListLabels env (.analysisReference a.1 a.2 :: rest) =
      ⟨.str a.1.heading, a.1.incidentId⟩ ::
        blockListLabels env a.2 ++ blockListLabels env rest := by
    rw [List.cons_append, ← blockListLabels_append]
    simp [blockListLabels, blockListParts, Block.parts, Block.label?, blockListParts_append]
  rw [hcons, hheading, hid]
  rcases analysisBlock_presented h with ⟨-, -, hchildren, hnone⟩ | ⟨-, children, hchildren, hspec⟩
  · rw [hchildren, hnone]
  · have hheaded : blockListLabels env a.2 = blockListLabels env children := by
      rw [hchildren]
      rfl
    rw [hheaded]
    rcases hspec with rfl | ⟨hnone, hprose⟩
    · rfl
    · rw [blockListLabels_of_isProse hprose, hnone]
      rfl

/-- The labels of the analyses. -/
lemma analyses_labels {shown : List (Json.Fields × ℕ)}
    {node : Json.Fields → Option Json.Fields} (number : Json.Fields × ℕ → ℕ)
    {analyses : List (AnalysisFields × List Block)}
    (h : shown.mapM (fun p => analysisBlock env p.1 (node p.1) (number p)) = .ok analyses) :
    blockListLabels env (analyses.map fun a => .analysisReference a.1 a.2) =
      shown.flatMap fun p =>
        ⟨.str (alertHeading env p.1 (number p) "Analysis"), some (incidentId env p.1)⟩ ::
          blockListLabels env (analysisPresentation env p.1) := by
  have hall := Except.mapM_eq_ok.mp h
  clear h
  induction hall with
  | nil => rfl
  | cons ha _ ih => rw [List.map_cons, analysisBlock_labels ha, ih, List.flatMap_cons]

/-- **The labels of a report**: those of the evidence, and those of the analyses with what their
presentations bring. -/
lemma reportBlocks_labels {policies : Policies} {incidents : Incidents} {narrative : Bool}
    {refs : PlanRefs} {alerts shown : List Json.Fields} {blocks : List Block}
    (hsummary : ∀ b ∈ refs.summary, b.isProse = true)
    (halerts : alertIncidents policies incidents refs = .ok alerts)
    (hshown : analysisIncidents policies incidents refs = .ok shown)
    (h : reportBlocks env policies incidents narrative refs = .ok blocks) :
    blockListLabels env blocks =
      (alerts.zipIdx.map fun p =>
        ⟨.str (alertHeading env p.1 (p.2 + 1) "Incident"), some (incidentId env p.1)⟩) ++
      shown.zipIdx.flatMap fun p =>
        ⟨.str (alertHeading env p.1 (analysisNumber env alerts p.1 p.2) "Analysis"),
            some (incidentId env p.1)⟩ ::
          blockListLabels env (analysisPresentation env p.1) := by
  obtain ⟨alerts', halerts', h⟩ := Except.bind_eq_ok.mp h
  cases halerts.symm.trans halerts'
  obtain ⟨shown', hshown', h⟩ := Except.bind_eq_ok.mp h
  cases hshown.symm.trans hshown'
  obtain ⟨analyses, hanalyses, h⟩ := Except.bind_eq_ok.mp h
  obtain ⟨evidence, hevidence, h⟩ := Except.bind_eq_ok.mp h
  cases h
  have hevidence := evidence_labels (fun incident =>
    (Dict.get? (bookmarkTargets analyses) (incidentId env incident)).getD .null) hevidence
  have hanalyses := analyses_labels (fun p => analysisNumber env alerts p.1 p.2) hanalyses
  simp [blockListLabels_append, hevidence, hanalyses, navigationBlocks_labels,
    blockListLabels_of_isProse hsummary]

/-- The blocks of the sections name the incidents they are about. -/
lemma reportBlocks_incidents {policies : Policies} {incidents : Incidents} {narrative : Bool}
    {refs : PlanRefs} {blocks : List Block} (hsummary : ∀ b ∈ refs.summary, b.isProse = true)
    (h : reportBlocks env policies incidents narrative refs = .ok blocks) :
    (∀ e, .incidentEvidence e ∈ blocks → ∃ id, strOrNone env.toPyRuntime e.incidentId = some id) ∧
      ∀ a children, .analysisReference a children ∈ blocks → ∃ id, a.incidentId = some id := by
  obtain ⟨alerts, -, h⟩ := Except.bind_eq_ok.mp h
  obtain ⟨shown, -, h⟩ := Except.bind_eq_ok.mp h
  obtain ⟨analyses, hanalyses, h⟩ := Except.bind_eq_ok.mp h
  obtain ⟨evidence, hevidence, h⟩ := Except.bind_eq_ok.mp h
  cases h
  have hnav : ∀ entries, ∀ b ∈ navigationBlocks entries, ∃ es, b = .alertNavigation es := by
    intro entries b hb
    unfold navigationBlocks at hb
    split at hb
    · cases hb
    · exact ⟨_, List.mem_singleton.mp hb⟩
  constructor
  · intro e he
    simp only [List.cons_append, List.mem_cons, List.mem_append, List.mem_map,
      List.not_mem_nil, reduceCtorEq, false_or, or_false, and_false, exists_false] at he
    rcases he with (he | he) | he
    · obtain ⟨es, hes⟩ := hnav _ _ he
      cases hes
    · obtain ⟨p, -, hp⟩ := Except.mem_of_mapM_eq_ok hevidence he
      obtain ⟨e', he', -, hid⟩ := incidentBlock_spec hp
      cases he'
      rw [hid]
      exact ⟨_, rfl⟩
    · cases hsummary _ he
  · intro a children ha
    simp only [List.cons_append, List.mem_cons, List.mem_append, List.mem_map,
      List.not_mem_nil, reduceCtorEq, false_or, or_false] at ha
    rcases ha with ((ha | ha) | ha) | ⟨p, hp, ha⟩
    · obtain ⟨es, hes⟩ := hnav _ _ ha
      cases hes
    · obtain ⟨p, -, hp⟩ := Except.mem_of_mapM_eq_ok hevidence ha
      obtain ⟨e, he, -⟩ := incidentBlock_spec hp
      cases he
    · cases hsummary _ ha
    · obtain ⟨q, -, hq⟩ := Except.mem_of_mapM_eq_ok hanalyses hp
      cases ha
      exact ⟨_, (analysisBlock_spec hq).2.1⟩

/-! ## Which numbers label an incident -/

section Document

variable {plan snapshot : Json.Fields} {doc : ReportDocument} {policies : Policies}
  {incidents : Incidents} {refs : PlanRefs} {alerts shown : List Json.Fields}
  (hc : Composed env plan snapshot doc policies incidents refs alerts shown)

include hc

/-- **The labels of a composed document.** A number labels an incident when it is given to the
incident, or when a presentation uses it for the incident. -/
lemma mem_documentLabels {id : PyStr} {n : ℕ} :
    (∃ l ∈ documentLabels env doc, id ∈ l.incident ∧ HeadingNumber l.heading n) ↔
      NumberOf env alerts shown id n ∨
        ∃ l ∈ presentationLabels env shown, id ∈ l.incident ∧ HeadingNumber l.heading n := by
  have hlabels := reportBlocks_labels (readPlan_isProse hc.planRead) hc.alertsFound
    hc.analysesFound hc.blocksBuilt
  rw [documentLabels, hlabels]
  constructor
  · rintro ⟨l, hl, hid, hn⟩
    rcases List.mem_append.mp hl with hl | hl
    · obtain ⟨p, hp, rfl⟩ := List.mem_map.mp hl
      obtain rfl : incidentId env p.1 = id := by simpa using hid
      rw [headingNumber_alertHeading.mp hn]
      exact .inl ⟨p.2, p.1, rfl, rfl, .inl (List.mem_zipIdx_iff_getElem?.mp hp)⟩
    · obtain ⟨p, hp, hl⟩ := List.mem_flatMap.mp hl
      rcases List.mem_cons.mp hl with rfl | hl
      · obtain rfl : incidentId env p.1 = id := by simpa using hid
        rw [headingNumber_alertHeading.mp hn]
        exact .inl (numberOf_analysisNumber hc.ids hc.alerts_mem hc.shown_mem hc.alerts_ids
          (List.mem_zipIdx_iff_getElem?.mp hp))
      · have hmem := List.fst_mem_of_mem_zipIdx hp
        exact .inr ⟨l, List.mem_flatMap.mpr ⟨p.1, hmem, hl⟩, hid, hn⟩
  · rintro (⟨i, incident, rfl, rfl, hi | ⟨hi, hnew⟩⟩ | ⟨l, hl, hid, hn⟩)
    · have hmem := List.mk_mem_zipIdx_iff_getElem?.mpr hi
      exact ⟨_, List.mem_append_left _ (List.mem_map.mpr ⟨_, hmem, rfl⟩), rfl,
        headingNumber_alertHeading.mpr rfl⟩
    · have hmem := List.mk_mem_zipIdx_iff_getElem?.mpr hi
      refine ⟨_, List.mem_append_right _ (List.mem_flatMap.mpr ⟨_, hmem, List.mem_cons_self⟩), rfl,
        headingNumber_alertHeading.mpr ?_⟩
      exact (analysisNumber_of_notMem hc.ids hc.alerts_mem hc.shown_mem hi hnew).symm
    · obtain ⟨incident, hincident, hl⟩ := List.mem_flatMap.mp hl
      obtain ⟨i, hi⟩ := List.getElem?_of_mem hincident
      have hmem := List.mk_mem_zipIdx_iff_getElem?.mpr hi
      exact ⟨l, List.mem_append_right _ (List.mem_flatMap.mpr
        ⟨_, hmem, List.mem_cons_of_mem _ hl⟩), hid, hn⟩

/-- When no number labels two incidents, an analysis is about the incident of its alert. -/
lemma NumbersAgree.of_labels
    (h : ∀ l ∈ documentLabels env doc, ∀ l' ∈ documentLabels env doc, ∀ n,
      HeadingNumber l.heading n → HeadingNumber l'.heading n →
      ∀ id ∈ l.incident, ∀ id' ∈ l'.incident, id = id') : NumbersAgree env doc := by
  refine ⟨fun e a children n he ha hen han => ?_, h⟩
  obtain ⟨hevidence, hanalyses⟩ :=
    reportBlocks_incidents (readPlan_isProse hc.planRead) hc.blocksBuilt
  obtain ⟨id, hid⟩ := hevidence e he
  obtain ⟨id', hid'⟩ := hanalyses a children ha
  have hlabel : ∀ b ∈ doc.blocks, ∀ l, b.label? env = some l → l ∈ documentLabels env doc := by
    intro b hb l hl
    refine List.mem_filterMap.mpr ⟨b, mem_blockListParts hb, hl⟩
  rw [hid, hid', h _ (hlabel _ he _ rfl) _ (hlabel _ ha _ rfl) n hen han id hid id' hid']

end Document

/-- **When the numbers of a composed document agree.** No number labels two incidents in the
document of an accepted plan, and an analysis is about the incident whose alert has its number, if
and only if the numbers given out do not meet: an analysis without an alert comes after as many
analyses as there are alerts, and the presentations of the analyses use a number for no other
incident than the one it is given to. -/
theorem composeReport_numbersAgree_iff (env : Env) (plan snapshot : Json.Fields)
    (doc : ReportDocument) (h : composeReport env (.obj plan) snapshot = .ok doc) :
    NumbersAgree env doc ↔ ∀ alerts shown, listedAlerts env plan snapshot = .ok alerts →
      selectedAnalyses env plan snapshot = .ok shown → NumbersFit env alerts shown := by
  obtain ⟨policies, incidents, refs, alerts, shown, hc⟩ := composeReport_composed h
  have hunique := numberOf_unique_iff hc.ids hc.alerts_mem hc.shown_mem
  constructor
  · intro hagree alerts' shown' halerts' hshown'
    cases hc.listed.symm.trans halerts'
    cases hc.selected.symm.trans hshown'
    have hlabels : ∀ id id' n,
        (NumberOf env alerts shown id n ∨
          ∃ l ∈ presentationLabels env shown, id ∈ l.incident ∧ HeadingNumber l.heading n) →
        (NumberOf env alerts shown id' n ∨
          ∃ l ∈ presentationLabels env shown, id' ∈ l.incident ∧ HeadingNumber l.heading n) →
        id = id' := by
      intro id id' n hid hid'
      obtain ⟨l, hl, hlid, hln⟩ := (mem_documentLabels hc).mpr hid
      obtain ⟨l', hl', hlid', hln'⟩ := (mem_documentLabels hc).mpr hid'
      exact hagree.labels l hl l' hl' n hln hln' id hlid id' hlid'
    refine ⟨?_, ?_, ?_⟩
    · apply hunique.mp
      intro id id' n hid hid'
      exact hlabels id id' n (.inl hid) (.inl hid')
    · intro l hl n hn id hid id' hid'
      exact hlabels id id' n (.inr ⟨l, hl, hid, hn⟩) (.inl hid')
    · intro l hl l' hl' n hn hn' id hid id' hid'
      exact hlabels id id' n (.inr ⟨l, hl, hid, hn⟩) (.inr ⟨l', hl', hid', hn'⟩)
  · intro hfit
    obtain ⟨hplaces, hgiven, hbrought⟩ := hfit alerts shown hc.listed hc.selected
    apply NumbersAgree.of_labels hc
    intro l hl l' hl' n hn hn' id hid id' hid'
    rcases (mem_documentLabels hc).mp ⟨l, hl, hid, hn⟩ with hid | ⟨m, hm, hid, hn⟩ <;>
      rcases (mem_documentLabels hc).mp ⟨l', hl', hid', hn'⟩ with hid' | ⟨m', hm', hid', hn'⟩
    · exact hunique.mpr hplaces id id' n hid hid'
    · exact (hgiven m' hm' n hn' id' hid' id hid).symm
    · exact hgiven m hm n hn id hid id' hid'
    · exact hbrought m hm m' hm' n hn hn' id hid id' hid'

/-- A plan that shows an alert and an analysis. -/
def pairedPlan (alert analysis : String) : Json.Fields :=
  [(py "blocks", .arr [
    .obj [(py "type", text "incident_reference"), (py "incident_id", text alert)],
    .obj [(py "type", text "analysis_reference"), (py "incident_id", text analysis)]])]

/-- A snapshot without coverage policies, with two incidents of which the second has been
analysed. -/
def twoIncidentSnapshot : Json.Fields := [
  (py "shift_starts_at", text "2026-01-01T00:00:00+00:00"),
  (py "incidents", .arr [
    .obj [(py "id", text "i1")],
    .obj [(py "id", text "i2"), (py "analysis_run_id", text "r2"),
      (py "analysis", plainResult)]])]

/-- The numbers of a report that shows an alert with its analysis. -/
theorem paired_numbersAgree :
    ∃ doc, composeReport reprEnv (.obj (pairedPlan "i2" "i2")) twoIncidentSnapshot = .ok doc ∧
      (NumbersAgree reprEnv doc ↔ ∀ alerts shown,
        listedAlerts reprEnv (pairedPlan "i2" "i2") twoIncidentSnapshot = .ok alerts →
        selectedAnalyses reprEnv (pairedPlan "i2" "i2") twoIncidentSnapshot = .ok shown →
          NumbersFit reprEnv alerts shown) :=
  ⟨_, rfl, composeReport_numbersAgree_iff reprEnv (pairedPlan "i2" "i2") twoIncidentSnapshot _ rfl⟩

/-- **The numbers of not all composed documents agree.** The analysis of an incident that the
report does not list is labelled with the number of another incident's alert. -/
theorem composeReport_not_numbersAgree :
    ¬ ∀ (env : Env) (plan snapshot : Json.Fields) (doc : ReportDocument),
      composeReport env (.obj plan) snapshot = .ok doc → NumbersAgree env doc := by
  intro hall
  obtain ⟨doc, hdoc, hlabels⟩ : ∃ doc,
      composeReport reprEnv (.obj (pairedPlan "i1" "i2")) twoIncidentSnapshot = .ok doc ∧
        documentLabels reprEnv doc = [
          ⟨.str (py "Alert #1 - Incident"), some (py "i1")⟩,
          ⟨.str (py "Alert #1 - Analysis"), some (py "i2")⟩] := ⟨_, rfl, rfl⟩
  have hagree := (hall reprEnv (pairedPlan "i1" "i2") twoIncidentSnapshot doc hdoc).labels
  rw [hlabels] at hagree
  have hsame := hagree _ List.mem_cons_self _ (List.mem_cons_of_mem _ List.mem_cons_self) 1
    ⟨py "Incident", rfl⟩ ⟨py "Analysis", rfl⟩ (py "i1") rfl (py "i2") rfl
  exact absurd hsame (by decide)

end Report
