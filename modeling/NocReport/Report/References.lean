import NocReport.Report.Links

set_option relaxedAutoImplicit false
set_option autoImplicit false

/-!
# The analysis references of a plan

A plan that lists blocks may refer to the analysis of an incident, and may name the analysis run it
means. Composition records the references by incident, so that a later one replaces an earlier one,
and compares the named run with the frozen run where it builds the analysis of an incident. A
reference that was replaced is never compared, nor is one to an incident that is not shown.

## Main definitions

* `Report.analysisReferences` — the analysis references of a plan, in order.
* `Report.namesFrozenRun` — a reference names the run that is frozen for an incident.
* `Report.ReferencesSound` — every reference that names a run names the frozen run.
* `Report.EscapesComparison` — a reference that composition does not hold against the frozen run.

## Main results

* `Report.recordReferences_last` — which reference is on record for an incident.
* `Report.composeReport_referencesSound_iff` — the references of an accepted plan are sound exactly
  when none escapes the comparison.
* `Report.composeReport_not_referencesSound` — not all references of all accepted plans are sound.
-/

namespace Report

variable {env : Env}

/-! ## The references of a plan -/

/-- The node refers to an analysis. -/
def isAnalysisReference (node : Json.Fields) : Bool :=
  PlanNodeKind.ofJson? (node.get (py "type")) == some .analysisReference

/-- The analysis references among the blocks of a plan, in order. -/
def analysisReferences (plan : Json.Fields) : List Json.Fields :=
  (objects (plan.get (py "blocks"))).filter isAnalysisReference

/-- The reference names a run. -/
def namesRun (node : Json.Fields) : Bool := !(node.get (py "analysis_run_id")).isNull

/-- The reference names the run of the incident, which has one. -/
def namesFrozenRun (env : Env) (node incident : Json.Fields) : Bool :=
  (incident.get (py "analysis_run_id")).truthy &&
    env.str (node.get (py "analysis_run_id")) == env.str (incident.get (py "analysis_run_id"))

/-- Every analysis reference of the plan that names a run names the one that the snapshot has
frozen for the incident it resolves to. -/
def ReferencesSound (env : Env) (plan snapshot : Json.Fields) : Prop :=
  ∃ incidents, collectIncidents env snapshot = .ok incidents ∧
    ∀ node ∈ analysisReferences plan, namesRun node = true →
      ∃ incident, analysisIncident env incidents node = .ok incident ∧
        namesFrozenRun env node incident = true

/-- Some reference among `later` is about the incident. -/
def Replaced (env : Env) (incidents : Incidents) (incident : Json.Fields)
    (later : List Json.Fields) : Prop :=
  ∃ other ∈ later, ∃ i, analysisIncident env incidents other = .ok i ∧
    incidentId env i = incidentId env incident

/-- **A reference that escapes the comparison with the frozen run.** Either it names another run
than the frozen one, and a later reference to the same incident replaces it; or the incident has no
run, and then it is not shown (only the incidents with a run are), or the text that stands for the
missing run is the name. -/
def EscapesComparison (env : Env) (policies : Policies) (incidents : Incidents)
    (node : Json.Fields) (later : List Json.Fields) : Prop :=
  ∃ incident, analysisIncident env incidents node = .ok incident ∧
    (Replaced env incidents incident later ∧ namesFrozenRun env node incident = false ∨
      (incident.get (py "analysis_run_id")).truthy = false ∧
        (policies.analyses.isText "all_available" = true ∨
          env.str (node.get (py "analysis_run_id")) =
            env.str (incident.get (py "analysis_run_id"))))

/-- No reference of the plan that names a run escapes the comparison. -/
def NoReferenceEscapes (env : Env) (plan snapshot : Json.Fields) : Prop :=
  ∀ policies incidents, readPolicies env snapshot = .ok policies →
    collectIncidents env snapshot = .ok incidents →
    ∀ earlier node later, analysisReferences plan = earlier ++ node :: later →
      namesRun node = true → ¬EscapesComparison env policies incidents node later

/-! ## The references on record -/

/-- What reading an analysis reference records: the node, under the id of its incident. -/
def recordReference (env : Env) (incidents : Incidents) (nodes : Dict PyStr Json.Fields)
    (node : Json.Fields) : Except PyError (Dict PyStr Json.Fields) := do
  let incident ← analysisIncident env incidents node
  return Dict.set nodes (incidentId env incident) node

/-- A node of another type records nothing. -/
lemma readPlanNode_analysisNodes {incidents : Incidents} {acc acc' : PlanRefs}
    {node : Json.Fields} (hkind : isAnalysisReference node = false)
    (h : readPlanNode env incidents acc node = .ok acc') :
    acc'.analysisNodes = acc.analysisNodes := by
  unfold readPlanNode at h
  cases hk : PlanNodeKind.ofJson? (node.get (py "type")) with
  | none =>
    rw [hk] at h
    cases h
  | some kind =>
    rw [hk] at h
    cases kind with
    | heading =>
      obtain ⟨raw, -, h⟩ := Except.bind_eq_ok.mp h
      obtain ⟨level, -, h⟩ := Except.bind_eq_ok.mp h
      split at h <;> cases h <;> rfl
    | paragraph | bilingualGeneratedText | divider | pageBreak =>
      cases h
      rfl
    | incidentReference =>
      obtain ⟨incident, -, h⟩ := Except.bind_eq_ok.mp h
      cases h
      rfl
    | analysisReference => simp [isAnalysisReference, hk] at hkind

/-- An analysis reference is recorded. -/
lemma readPlanNode_reference {incidents : Incidents} {acc acc' : PlanRefs} {node : Json.Fields}
    (hkind : isAnalysisReference node = true)
    (h : readPlanNode env incidents acc node = .ok acc') :
    recordReference env incidents acc.analysisNodes node = .ok acc'.analysisNodes := by
  unfold readPlanNode at h
  rw [isAnalysisReference, beq_iff_eq] at hkind
  rw [hkind] at h
  obtain ⟨incident, hincident, h⟩ := Except.bind_eq_ok.mp h
  cases h
  exact Except.bind_eq_ok.mpr ⟨incident, hincident, rfl⟩

/-- Reading a plan records its analysis references, one after the other. -/
lemma readPlan_references {canonical : Bool} {incidents : Incidents} {plan : Json.Fields}
    {refs : PlanRefs} (hlegacy : Dict.contains plan (py "general_summary") = false)
    (h : readPlan env canonical incidents plan = .ok refs) :
    (analysisReferences plan).foldlM (recordReference env incidents) [] =
      .ok refs.analysisNodes := by
  rw [readPlan, hlegacy, if_neg Bool.false_ne_true] at h
  split at h
  · exact absurd h Except.throw_ne_ok
  · split at h
    · next nodes hnodes =>
      rw [analysisReferences, hnodes]
      clear hnodes hlegacy
      have hempty : ([] : Dict PyStr Json.Fields) = PlanRefs.empty.analysisNodes := rfl
      rw [hempty]
      unfold readPlanNodes at h
      generalize PlanRefs.empty = acc at h ⊢
      induction nodes generalizing acc with
      | nil =>
        cases h
        rfl
      | cons node nodes ih =>
        rw [List.foldlM_cons] at h
        obtain ⟨acc', hnode, hrest⟩ := Except.bind_eq_ok.mp h
        split at hnode
        · next fields =>
          have hcons : objects (.arr (.obj fields :: nodes)) =
              fields :: objects (.arr nodes) := rfl
          rw [hcons]
          cases hkind : isAnalysisReference fields with
          | true =>
            rw [List.filter_cons_of_pos hkind, List.foldlM_cons,
              readPlanNode_reference hkind hnode]
            exact ih acc' hrest
          | false =>
            rw [List.filter_cons_of_neg (by simp [hkind]),
              ← readPlanNode_analysisNodes hkind hnode]
            exact ih acc' hrest
        · exact absurd hnode Except.throw_ne_ok
    · exact absurd h Except.throw_ne_ok

/-- **The reference on record for an incident** is the last one that is about it. -/
lemma recordReferences_last {incidents : Incidents} {earlier later : List Json.Fields}
    {node : Json.Fields} {start nodes : Dict PyStr Json.Fields}
    (h : (earlier ++ node :: later).foldlM (recordReference env incidents) start = .ok nodes) :
    ∃ incident, analysisIncident env incidents node = .ok incident ∧
      (¬Replaced env incidents incident later →
        Dict.get? nodes (incidentId env incident) = some node) := by
  rw [List.foldlM_append] at h
  obtain ⟨before, -, h⟩ := Except.bind_eq_ok.mp h
  rw [List.foldlM_cons] at h
  obtain ⟨recorded, hrecorded, h⟩ := Except.bind_eq_ok.mp h
  obtain ⟨incident, hincident, hrecorded⟩ := Except.bind_eq_ok.mp hrecorded
  cases hrecorded
  refine ⟨incident, hincident, fun hlast => ?_⟩
  refine Except.foldlM_invariant
    (P := fun d => Dict.get? d (incidentId env incident) = some node)
    (fun d other d' hother hd hstep => ?_) (Dict.get?_set_self _ _ _) h
  obtain ⟨i, hi, hstep⟩ := Except.bind_eq_ok.mp hstep
  cases hstep
  have hne : incidentId env i ≠ incidentId env incident := by
    intro hsame
    exact hlast ⟨other, hother, i, hi, hsame⟩
  rw [Dict.get?_set_of_ne _ _ hne.symm, hd]

/-! ## The references that are compared -/

/-- Building an analysis compares the run that its reference names with the frozen one. -/
lemma analysisBlock_compared {incident node : Json.Fields} {n : ℕ}
    {a : AnalysisFields × List Block} (hnames : namesRun node = true)
    (h : analysisBlock env incident (some node) n = .ok a) :
    env.str (node.get (py "analysis_run_id")) = env.str (incident.get (py "analysis_run_id")) := by
  obtain ⟨_, hcheck, _⟩ := Except.bind_eq_ok.mp h
  dsimp only [checkPlanNode] at hcheck
  rw [namesRun, Bool.not_eq_true'] at hnames
  split at hcheck
  · cases hcheck
  · split at hcheck
    · cases hcheck
    · split at hcheck
      · exact absurd hcheck Except.throw_ne_ok
      · next heq => simpa [hnames] using heq

/-- The incident of a reference on record is shown, unless only the incidents with a run are and
it has none. -/
lemma analysisIncidents_shown {policies : Policies} {incidents : Incidents} {refs : PlanRefs}
    {shown : List Json.Fields} {incident node : Json.Fields} (hfound : incidents.Found env)
    (hmem : incident ∈ incidents.unique)
    (hrecord : Dict.get? refs.analysisNodes (incidentId env incident) = some node)
    (hshown : analysisIncidents policies incidents refs = .ok shown) :
    incident ∈ shown ∨ policies.analyses.isText "all_available" = true ∧
      (incident.get (py "analysis_run_id")).truthy = false := by
  unfold analysisIncidents at hshown
  split at hshown
  · next hall =>
    cases hshown
    cases hrun : (incident.get (py "analysis_run_id")).truthy with
    | true => exact .inl (List.mem_filter.mpr ⟨hmem, hrun⟩)
    | false => exact .inr ⟨hall, rfl⟩
  · have hkey : incidentId env incident ∈ Dict.keys refs.analysisNodes :=
      List.mem_map_of_mem (Dict.mem_of_get?_eq_some hrecord)
    obtain ⟨i, hi, hlookup⟩ := Except.exists_of_mapM_eq_ok hshown hkey
    rw [hfound incident hmem] at hlookup
    cases hlookup
    exact .inl hi

/-- The analysis of an incident that is shown is held against the reference on record. -/
lemma reportBlocks_compared {policies : Policies} {incidents : Incidents} {refs : PlanRefs}
    {shown : List Json.Fields} {blocks : List Block} {incident node : Json.Fields}
    (hshown : analysisIncidents policies incidents refs = .ok shown)
    (h : reportBlocks env policies incidents false refs = .ok blocks) (hi : incident ∈ shown)
    (hrecord : Dict.get? refs.analysisNodes (incidentId env incident) = some node)
    (hnames : namesRun node = true) :
    env.str (node.get (py "analysis_run_id")) = env.str (incident.get (py "analysis_run_id")) := by
  obtain ⟨alerts, -, h⟩ := Except.bind_eq_ok.mp h
  obtain ⟨shown', hshown', h⟩ := Except.bind_eq_ok.mp h
  cases hshown.symm.trans hshown'
  obtain ⟨analyses, hanalyses, -⟩ := Except.bind_eq_ok.mp h
  obtain ⟨n, hn⟩ := List.getElem?_of_mem hi
  obtain ⟨a, -, ha⟩ := Except.exists_of_mapM_eq_ok hanalyses
    (List.mk_mem_zipIdx_iff_getElem?.mpr hn)
  rw [planNodeFor, hrecord] at ha
  exact analysisBlock_compared hnames ha

/-- **When the analysis references of an accepted plan are sound.** Every analysis reference that
names a run names the one frozen for the incident it resolves to if and only if no reference that
names a run escapes the comparison with the frozen run.

**Proof sketch.** A reference that is not replaced is the one on record for its incident. When the
incident is shown, the names of the two runs are compared, and an incident that has a run is always
shown. -/
theorem composeReport_referencesSound_iff (env : Env) (plan snapshot : Json.Fields)
    (doc : ReportDocument) (hlegacy : Dict.contains plan (py "general_summary") = false)
    (h : composeReport env (.obj plan) snapshot = .ok doc) :
    ReferencesSound env plan snapshot ↔ NoReferenceEscapes env plan snapshot := by
  obtain ⟨policies, incidents, refs, alerts, shown, hc⟩ := composeReport_composed h
  have hblocks := hc.blocksBuilt
  rw [hlegacy] at hblocks
  obtain ⟨hfound, hrefsMem⟩ := collectIncidents_found hc.incidentsRead
  have hrecords := readPlan_references hlegacy hc.planRead
  constructor
  · intro hsound policies' incidents' hpolicies' hincidents' earlier node later hsplit hnames
    cases hc.policiesRead.symm.trans hpolicies'
    cases hc.incidentsRead.symm.trans hincidents'
    obtain ⟨incidents'', hincidents'', hsound⟩ := hsound
    cases hc.incidentsRead.symm.trans hincidents''
    have hnode : node ∈ analysisReferences plan := by simp [hsplit]
    obtain ⟨incident, hincident, hfrozen⟩ := hsound node hnode hnames
    intro hescapes
    obtain ⟨incident', hincident', hescapes⟩ := hescapes
    cases hincident.symm.trans hincident'
    rcases hescapes with ⟨-, hother⟩ | ⟨hnone, -⟩
    · rw [hfrozen] at hother
      exact Bool.noConfusion hother
    · simp [namesFrozenRun, hnone] at hfrozen
  · intro hnone
    refine ⟨incidents, hc.incidentsRead, fun node hnode hnames => ?_⟩
    obtain ⟨earlier, later, hsplit⟩ := List.append_of_mem hnode
    have hkept := hnone policies incidents hc.policiesRead hc.incidentsRead earlier node later
      hsplit hnames
    rw [hsplit] at hrecords
    obtain ⟨incident, hincident, hlast⟩ := recordReferences_last hrecords
    refine ⟨incident, hincident, ?_⟩
    by_contra hother
    rw [Bool.not_eq_true] at hother
    apply hkept
    refine ⟨incident, hincident, ?_⟩
    by_cases hreplaced : Replaced env incidents incident later
    · exact .inl ⟨hreplaced, hother⟩
    · have hrecord := hlast hreplaced
      have hmem := analysisIncident_mem hrefsMem hincident
      rcases analysisIncidents_shown hfound hmem hrecord hc.analysesFound
        with hi | ⟨hall, hrun⟩
      · have heq := reportBlocks_compared hc.analysesFound hblocks hi hrecord hnames
        have hrun : (incident.get (py "analysis_run_id")).truthy = false := by
          simpa [namesFrozenRun, heq] using hother
        exact .inr ⟨hrun, .inr heq⟩
      · exact .inr ⟨hrun, .inl hall⟩

/-- A plan that shows an alert and refers to its analysis, naming a run. -/
def namedRunPlan (run : String) : Json.Fields :=
  [(py "blocks", .arr [
    .obj [(py "type", text "incident_reference"), (py "incident_id", text "i1")],
    .obj [(py "type", text "analysis_reference"), (py "incident_id", text "i1"),
      (py "analysis_run_id", text run)]])]

/-- The references of a plan that names the frozen run of its incident. -/
theorem namedRun_referencesSound :
    ∃ doc, Dict.contains (namedRunPlan "r1") (py "general_summary") = false ∧
      composeReport reprEnv (.obj (namedRunPlan "r1")) analysedSnapshot = .ok doc ∧
      (ReferencesSound reprEnv (namedRunPlan "r1") analysedSnapshot ↔
        NoReferenceEscapes reprEnv (namedRunPlan "r1") analysedSnapshot) :=
  ⟨_, by decide, rfl, composeReport_referencesSound_iff reprEnv (namedRunPlan "r1")
    analysedSnapshot _ (by decide) rfl⟩

/-- A snapshot of an incident that has not been analysed, whose report shows all incidents and all
analyses there are. -/
def unanalysedSnapshot : Json.Fields := [
  (py "shift_starts_at", text "2026-01-01T00:00:00+00:00"),
  (py "coverage", .obj [(py "incidents", text "all"), (py "analyses", text "all_available")]),
  (py "incidents", .arr [.obj [(py "id", text "i1")]])]

/-- **Not all references of all accepted plans are sound.** A plan may name a run for an incident
that has none: the analysis is not shown, so that the run is never looked at. -/
theorem composeReport_not_referencesSound :
    ¬ ∀ (env : Env) (plan snapshot : Json.Fields) (doc : ReportDocument),
      Dict.contains plan (py "general_summary") = false →
      composeReport env (.obj plan) snapshot = .ok doc → ReferencesSound env plan snapshot := by
  intro hall
  obtain ⟨doc, hdoc⟩ : ∃ doc,
      composeReport reprEnv (.obj (namedRunPlan "r9")) unanalysedSnapshot = .ok doc := ⟨_, rfl⟩
  obtain ⟨incidents, hincidents, hsound⟩ :=
    hall reprEnv (namedRunPlan "r9") unanalysedSnapshot doc (by decide) hdoc
  cases hincidents
  obtain ⟨incident, hincident, hfrozen⟩ := hsound _ (List.mem_singleton.mpr rfl) (by decide)
  cases hincident
  exact absurd hfrozen (by decide)

end Report
