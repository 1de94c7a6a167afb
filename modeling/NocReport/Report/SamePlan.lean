import NocReport.Report.WriteOnce

set_option relaxedAutoImplicit false
set_option autoImplicit false

/-!
# The pinned artifacts of a report and its plan

A worker renders the three artifacts of a report from one plan, but it reads their versions back
from keys that it shares with every other worker of the job, and it takes over artifacts that it
finds. What it pins can therefore have been rendered from another plan. To speak about that, the
system is run with objects that remember the plan they were rendered from; forgetting the plans
gives the run of the system.

## Main definitions

* `Artifacts.Config.traced`, `Artifacts.State.erase` — objects that remember their plan, and
  forgetting it.
* `Artifacts.MixesPlans` — the steps at which artifacts of another plan get into a report.
* `Artifacts.PlanInv` — the invariant of the runs without them.

## Main results

* `Artifacts.run_erase` — the traced system runs as the system does.
* `Artifacts.same_plan` — along a run without such steps the pinned artifacts of a report and its
  output hash come from one plan.
* `Artifacts.plans_can_mix` — along every run they do not.
-/

/-! ## Claim tokens -/

namespace Jobs

open Transition

variable {cfg : Config} {s s' : State} {a : Action} {w : WorkerId} {tok : Token}

/-- Every claim token that a worker carries has been drawn. -/
def TokensIssued (s : State) : Prop := ∀ w tok, s.ownToken w = some tok → tok ∈ s.issued

lemma tokensIssued_init : TokensIssued .init := by
  intro w tok h
  cases h

lemma step_issued_mono (h : step cfg s a = some s') (htok : tok ∈ s.issued) : tok ∈ s'.issued := by
  cases a with
  | tick | dispatchCrash | restartBroker | requeueCrash =>
    cases h
    exact htok
  | enqueue | deliver =>
    simp only [step] at h
    repeat' split at h
    all_goals cases h
    all_goals exact htok
  | dispatchPublish | dispatchMark | expireRetry | requeuePublish | requeueReset =>
    simp only [step] at h
    split at h
    · cases h
      first
        | exact htok
        | (split <;> exact htok)
    · cases h
  | worker w b =>
    simp only [step] at h
    split at h
    · next hw => exact (workerStep_frame hw h).issued_mono tok htok
    · cases h

lemma tokensIssued_step (hs : TokensIssued s) (h : step cfg s a = some s') : TokensIssued s' := by
  intro w tok htok
  rcases step_handlers h w with hsame | ⟨m, hd | hd⟩ | ⟨b, m, p, rfl, hw, hstep⟩
  · refine step_issued_mono h (hs w tok ?_)
    rwa [State.ownToken, hsame] at htok
  · simp [State.ownToken, hd, Phase.token?] at htok
  · simp [State.ownToken, hd, Phase.token?] at htok
  · rcases (workerStep_frame hw hstep).token tok htok with hp | ⟨-, hissued⟩
    · exact step_issued_mono h (hs w tok (by rwa [ownToken_eq hw]))
    · exact hissued

/-- The row of a job has a claim token. -/
def State.ClaimedBy (s : State) (j : JobId) (tok : Token) : Prop :=
  ∃ row, s.jobs j = some row ∧ row.claimToken = some tok

/-- A token that has been drawn does not come back to a row. -/
lemma claimedBy_of_step (h : step cfg s a = some s') (htok : tok ∈ s.issued) {j : JobId}
    (hj : s'.ClaimedBy j tok) : s.ClaimedBy j tok := by
  obtain ⟨row', hr', ht'⟩ := hj
  have hchange := step_rowChange h j
  rw [hr'] at hchange
  generalize hr : s.jobs j = r at hchange
  cases hchange with
  | same => exact ⟨row', hr, ht'⟩
  | insert => cases ht'
  | claim w m tok' row _ _ _ _ hfresh hrow =>
    rw [(JobRow.claimUpdate_eq_some hrow).2.2.1] at ht'
    cases ht'
    exact absurd htok hfresh
  | complete w m tok' row _ _ _ hmatch => simp [JobRow.markCompleted, hmatch] at ht'
  | fail w m tok' _ row _ _ _ hmatch => simp [JobRow.markFailed, hmatch] at ht'
  | mark => cases ht'
  | bump n row => exact ⟨row, hr, ht'⟩
  | renew w m p tok' row =>
    refine ⟨row, hr, ?_⟩
    unfold JobRow.renewJobLease at ht'
    split at ht' <;> exact ht'
  | reset row => exact ⟨row, hr, JobRow.requeueReset_claimToken ht'⟩

end Jobs

namespace Artifacts

open Jobs Transition

variable {Plan Content Digest : Type}

/-! ## Objects that remember their plan -/

/-- The settings under which every object remembers the plan it was rendered from. -/
def Config.traced (cfg : Config Plan Content Digest) : Config Plan (Plan × Content) Digest where
  jobs := cfg.jobs
  render := fun j plan kind noise => (plan, cfg.render j plan kind noise)
  dumps := fun plan => (plan, cfg.dumps plan)
  sha256 := fun object => cfg.sha256 object.2

/-- The objects without their plans. -/
def State.erase (s : State Plan (Plan × Content) Digest) : State Plan Content Digest where
  base := s.base
  rows := s.rows
  outputs := s.outputs
  plans := s.plans
  objects := fun j kind => (s.objects j kind).map (·.2)
  drafts := s.drafts
  syncs := s.syncs

variable {cfg : Config Plan Content Digest} {s s' : State Plan (Plan × Content) Digest}

lemma latestPin_erase (versions : List (Plan × Content)) :
    latestPin cfg (versions.map (·.2)) = latestPin cfg.traced versions := by
  simp only [latestPin, List.getLast?_map, Option.map_map, List.length_map]
  rfl

lemma jobStep_erase (a : Jobs.Action) :
    jobStep cfg s.erase a = (jobStep cfg.traced s a).map State.erase := by
  simp only [jobStep, Option.map_bind]
  congr 1
  funext base
  simp only [Function.comp_apply]
  split
  · next w =>
    simp only [State.erase]
    cases s.drafts w <;> rfl
  · next w =>
    simp only [State.erase]
    cases s.base.handlers w with
    | none => cases completes? s.base w <;> cases s.drafts w <;> rfl
    | some h =>
      obtain ⟨m, p⟩ := h
      cases p with
      | claimed => rfl
      | _ => cases completes? s.base w <;> cases s.drafts w <;> rfl
  · rfl

/-- An upload, without the plan. -/
lemma upload_erase (j : JobId) (kind : Artifact) (object : Plan × Content) :
    (fun i kind' => (Function.update s.objects j (Function.update (s.objects j) kind
        (s.objects j kind ++ [object])) i kind').map (·.2)) =
      Function.update s.erase.objects j (Function.update (s.erase.objects j) kind
        (s.erase.objects j kind ++ [object.2])) := by
  funext i kind'
  by_cases hi : i = j
  · subst hi
    by_cases hkind : kind' = kind
    · subst hkind
      simp [State.erase]
    · simp [hkind, State.erase]
  · simp [hi, State.erase]

lemma draftStep_erase (w : WorkerId) (j : JobId) (d : Draft Plan Digest) (a : DraftAction Plan) :
    draftStep cfg s.erase w j d a = (draftStep cfg.traced s w j d a).map State.erase := by
  have hlatest : ∀ kind, latestPin cfg (s.erase.objects j kind) =
      latestPin cfg.traced (s.objects j kind) := fun kind => latestPin_erase _
  cases a with
  | loadPlan lost =>
    cases d with
    | loading =>
      simp only [draftStep, State.erase]
      cases s.plans j <;> rfl
    | asking | saving | checking | uploading | readingBack | finished => rfl
  | callModel plan => cases d <;> rfl
  | savePlan => cases d <;> rfl
  | checkExisting lost =>
    cases d with
    | checking plan found =>
      simp only [draftStep]
      cases nextArtifact found with
      | none => rfl
      | some kind =>
        simp only [hlatest]
        cases latestPin cfg.traced (s.objects j kind) with
        | none => rfl
        | some pin =>
          cases lost with
          | true => rfl
          | false =>
            cases hp : pinsOf? (found ++ [pin]) <;> simp [hp, State.erase]
    | loading | asking | saving | uploading | readingBack | finished => rfl
  | upload noise =>
    cases d with
    | uploading plan done =>
      simp only [draftStep]
      cases nextArtifact done with
      | none => rfl
      | some kind =>
        have hupload := upload_erase (s := s) j kind (plan, cfg.render j plan kind noise)
        simp only [Option.map_some, State.erase, Config.traced] at hupload ⊢
        rw [hupload]
    | loading | asking | saving | checking | readingBack | finished => rfl
  | readBack =>
    cases d with
    | readingBack plan done =>
      simp only [draftStep]
      cases nextArtifact done with
      | none => rfl
      | some kind =>
        simp only [hlatest]
        cases latestPin cfg.traced (s.objects j kind) with
        | none => rfl
        | some pin => cases hp : pinsOf? (done ++ [pin]) <;> simp [hp, State.erase]
    | loading | asking | saving | checking | uploading | finished => rfl

lemma syncStep_erase (k : ℕ) (a : SyncAction) :
    syncStep cfg s.erase k a = (syncStep cfg.traced s k a).map State.erase := by
  have hlatest : ∀ j, latestPin cfg (s.erase.objects j .report) =
      latestPin cfg.traced (s.objects j .report) := fun j => latestPin_erase _
  cases a with
  | readRow j =>
    simp only [syncStep, State.erase]
    cases s.syncs k <;> cases s.base.jobs j <;> rfl
  | readJob =>
    simp only [syncStep, State.erase]
    split
    · next j pinned hk =>
      cases s.base.jobs j <;> rfl
    · rfl
  | head =>
    simp only [syncStep, hlatest]
    simp only [State.erase]
    split <;> rfl
  | write =>
    simp only [syncStep, State.erase]
    split <;> rfl

/-- A step of the traced system is a step of the system. -/
lemma step_erase (a : Action Plan) : step cfg s.erase a = (step cfg.traced s a).map State.erase := by
  cases a with
  | job b => exact jobStep_erase b
  | draft w b =>
    have hhandler : s.erase.base.handlers w = s.base.handlers w := rfl
    simp only [step, hhandler]
    cases s.base.handlers w with
    | none => rfl
    | some h =>
      obtain ⟨m, p⟩ := h
      cases p with
      | processing => exact draftStep_erase w _ _ b
      | _ => rfl
  | sync k b => exact syncStep_erase k b

/-- **The traced system runs as the system does.** -/
theorem run_erase (as : List (Action Plan)) :
    run (step cfg) s.erase as = (run (step cfg.traced) s as).map State.erase := by
  induction as generalizing s with
  | nil => rfl
  | cons a as ih =>
    rw [run_cons, run_cons, step_erase]
    cases step cfg.traced s a with
    | none => rfl
    | some t => exact ih

/-! ## Where plans mix -/

/-- The plan from which the version of an artifact that a pin names was rendered. -/
def planOf (versions : List (Plan × Content)) (pin : Pin Digest) : Option Plan :=
  versions[pin.version]?.map (·.1)

/-- The steps at which artifacts of another plan get into a report. -/
inductive MixesPlans (cfg : Config Plan Content Digest) (s : State Plan (Plan × Content) Digest) :
    Action Plan → Prop
  /-- `read_artifact_metadata` after an upload, by a worker that has the claim, when another worker
  has since uploaded a rendering of another plan -/
  | readBack (w : WorkerId) (m : Message) (tok : Token) (plan : Plan)
      (done : List (Pin Digest)) (kind : Artifact) (object : Plan × Content)
      (hw : s.base.handlers w = some ⟨m, .processing tok⟩) (hclaim : s.base.ClaimedBy m.job tok)
      (hd : s.drafts w = .readingBack plan done) (hk : nextArtifact done = some kind)
      (hlatest : (s.objects m.job kind).getLast? = some object) (hother : object.1 ≠ plan) :
      MixesPlans cfg s (.draft w .readBack)
  /-- the last read of `existing_report_artifacts`, by a worker that has the claim, when one of
  the three artifacts it takes over was rendered from another plan than its own -/
  | existing (w : WorkerId) (m : Message) (tok : Token) (plan : Plan) (found : List (Pin Digest))
      (kind other : Artifact) (pin : Pin Digest) (pins : Artifact → Pin Digest)
      (hw : s.base.handlers w = some ⟨m, .processing tok⟩) (hclaim : s.base.ClaimedBy m.job tok)
      (hd : s.drafts w = .checking plan found) (hk : nextArtifact found = some kind)
      (hlatest : latestPin cfg.traced (s.objects m.job kind) = some pin)
      (hpins : pinsOf? (found ++ [pin]) = some pins)
      (hother : planOf (s.objects m.job other) (pins other) ≠ some plan) :
      MixesPlans cfg s (.draft w (.checkExisting false))
  /-- the `UPDATE` of a sync that has found a report of another plan than the document that is
  pinned -/
  | sync (k : ℕ) (j : JobId) (pin document : Pin Digest) (hk : s.syncs k = some (.write j pin))
      (hrow : s.rows j .document = some document)
      (hother : planOf (s.objects j .report) pin ≠ planOf (s.objects j .document) document) :
      MixesPlans cfg s (.sync k .write)

/-! ## The invariant -/

section PlanOf

variable {versions versions' : List (Plan × Content)} {pin : Pin Digest} {plan : Plan}

/-- Versions are never deleted or overwritten. -/
lemma planOf_mono (h : planOf versions pin = some plan) (hv : versions <+: versions') :
    planOf versions' pin = some plan := by
  obtain ⟨new, rfl⟩ := hv
  obtain ⟨object, hobject, hplan⟩ := Option.map_eq_some_iff.mp h
  have hlt := (List.getElem?_eq_some_iff.mp hobject).1
  rwa [planOf, List.getElem?_append_left hlt]

/-- The latest version has a plan. -/
lemma planOf_latest (h : latestPin cfg.traced versions = some pin) :
    ∃ object, versions.getLast? = some object ∧ planOf versions pin = some object.1 := by
  obtain ⟨object, hobject, rfl⟩ := Option.map_eq_some_iff.mp h
  refine ⟨object, hobject, ?_⟩
  rw [planOf, ← List.getLast?_eq_getElem?, hobject]
  rfl

end PlanOf

/-- The metadata in a draft names versions that were rendered from its plan. -/
def Draft.Pure (objects : Artifact → List (Plan × Content)) : Draft Plan Digest → Prop
  | .uploading plan done | .readingBack plan done =>
    EachPin (fun kind pin => planOf (objects kind) pin = some plan) done
  | .finished plan pins => ∀ kind, planOf (objects kind) (pins kind) = some plan
  | _ => True

lemma Draft.Pure.mono {objects objects' : Artifact → List (Plan × Content)}
    {d : Draft Plan Digest} (h : d.Pure objects) (hv : ∀ kind, objects kind <+: objects' kind) :
    d.Pure objects' := by
  cases d with
  | loading | asking | saving | checking => trivial
  | uploading | readingBack => exact EachPin.mono h fun kind _ hp => planOf_mono hp (hv kind)
  | finished plan pins => exact fun kind => planOf_mono (h kind) (hv kind)

lemma draftStep_outputs {w : WorkerId} {j : JobId} {d : Draft Plan Digest}
    {a : DraftAction Plan} (h : draftStep cfg.traced s w j d a = some s') :
    s'.outputs = s.outputs := by
  cases a with
  | _ =>
    simp only [draftStep] at h
    repeat' split at h
    all_goals cases h
    all_goals rfl

/-- A worker that goes on with another draft. -/
lemma pure_goOn {w : WorkerId} {j : JobId} {d : Draft Plan Digest}
    {plans : JobId → Option Plan} (hd : d.Pure (s.objects j)) :
    Draft.Pure (({ s with plans, drafts := Function.update s.drafts w d }).objects j)
      (({ s with plans, drafts := Function.update s.drafts w d }).drafts w) := by
  simpa using hd

/-- A drafting step of a worker that has the claim keeps the metadata of its draft to its plan. -/
lemma draftStep_pure {w : WorkerId} {m : Message} {tok : Token} {a : DraftAction Plan}
    (hw : s.base.handlers w = some ⟨m, .processing tok⟩) (hclaim : s.base.ClaimedBy m.job tok)
    (ha : ¬ MixesPlans cfg s (.draft w a)) (hpure : (s.drafts w).Pure (s.objects m.job))
    (h : draftStep cfg.traced s w m.job (s.drafts w) a = some s') :
    (s'.drafts w).Pure (s'.objects m.job) := by
  cases a with
  | loadPlan lost =>
    simp only [draftStep] at h
    repeat' split at h
    all_goals cases h
    all_goals exact pure_goOn trivial
  | callModel plan =>
    simp only [draftStep] at h
    split at h <;> cases h
    exact pure_goOn trivial
  | savePlan =>
    simp only [draftStep] at h
    split at h <;> cases h
    exact pure_goOn trivial
  | checkExisting lost =>
    simp only [draftStep] at h
    split at h
    · next plan found hd =>
      split at h
      · next kind hk =>
        split at h
        · next pin hpin =>
          split at h
          · cases h
            exact pure_goOn EachPin.nil
          · next hlost =>
            rw [Bool.not_eq_true] at hlost
            subst hlost
            split at h
            · next pins hpins =>
              cases h
              refine pure_goOn fun other => ?_
              by_contra hother
              exact ha (.existing w m tok plan found kind other pin pins hw hclaim hd hk hpin
                hpins hother)
            · cases h
              exact pure_goOn trivial
        · cases h
          exact pure_goOn EachPin.nil
      · cases h
    · cases h
  | upload noise =>
    have hkept := Draft.Pure.mono hpure ((draftStep_frame h).objects m.job)
    simp only [draftStep] at h
    split at h
    · next plan done hd =>
      split at h
      · cases h
        rw [hd] at hkept
        simpa [Draft.Pure] using hkept
      · cases h
    · cases h
  | readBack =>
    simp only [draftStep] at h
    split at h
    · next plan done hd =>
      split at h
      · next kind hk =>
        split at h
        · next pin hpin =>
          obtain ⟨object, hobject, hplan⟩ := planOf_latest hpin
          have hown : object.1 = plan := by
            by_contra hother
            exact ha (.readBack w m tok plan done kind object hw hclaim hd hk hobject hother)
          rw [hd] at hpure
          have hsnoc : EachPin (fun kind pin => planOf (s.objects m.job kind) pin = some plan)
              (done ++ [pin]) := EachPin.snoc hpure hk (hown ▸ hplan)
          split at h
          · next pins hpins =>
            cases h
            exact pure_goOn fun kind => hsnoc.all hpins kind
          · cases h
            exact pure_goOn hsnoc
        · cases h
      · cases h
    · cases h

/-- The pinned artifacts of a job and its output hash come from one plan. -/
def OnePlan (cfg : Config Plan Content Digest) (s : State Plan (Plan × Content) Digest)
    (j : JobId) : Prop :=
  ∃ plan, (∀ kind, ∃ pin, s.rows j kind = some pin ∧
    planOf (s.objects j kind) pin = some plan) ∧
      s.outputs j = some (cfg.sha256 (cfg.dumps plan))

/-- What holds in every state of a run without such steps. -/
structure PlanInv (cfg : Config Plan Content Digest) (s : State Plan (Plan × Content) Digest) :
    Prop where
  issued : TokensIssued s.base
  processing : ∀ w m tok, s.base.handlers w = some ⟨m, .processing tok⟩ →
    s.base.ClaimedBy m.job tok → (s.drafts w).Pure (s.objects m.job)
  completing : ∀ w m tok, s.base.handlers w = some ⟨m, .completing tok⟩ →
    s.base.ClaimedBy m.job tok → (s.drafts w).Pure (s.objects m.job)
  /-- only `mark_completed` pins a document -/
  pinned : ∀ j document, s.rows j .document = some document → OnePlan cfg s j

lemma planInv_init : PlanInv cfg .init where
  issued := tokensIssued_init
  processing := by intro w m tok h; cases h
  completing := by intro w m tok h; cases h
  pinned := by intro j document h; cases h

/-- New versions do not change what has been pinned. -/
lemma OnePlan.mono {j : JobId} (h : OnePlan cfg s j) (hrows : s'.rows = s.rows)
    (houtputs : s'.outputs = s.outputs) (hv : ∀ kind, s.objects j kind <+: s'.objects j kind) :
    OnePlan cfg s' j := by
  obtain ⟨plan, hpins, houtput⟩ := h
  refine ⟨plan, fun kind => ?_, houtputs ▸ houtput⟩
  obtain ⟨pin, hpin, hplan⟩ := hpins kind
  exact ⟨pin, hrows ▸ hpin, planOf_mono hplan (hv kind)⟩

/-- A drafting step keeps the invariant. -/
lemma PlanInv.draft (hs : PlanInv cfg s) {w : WorkerId} {m : Message} {tok : Token}
    {a : DraftAction Plan} (hw : s.base.handlers w = some ⟨m, .processing tok⟩)
    (ha : ¬ MixesPlans cfg s (.draft w a))
    (h : draftStep cfg.traced s w m.job (s.drafts w) a = some s') : PlanInv cfg s' := by
  have hf := draftStep_frame h
  refine ⟨?_, ?_, ?_, ?_⟩
  · rw [hf.base]
    exact hs.issued
  · intro w' m' tok' hw' hclaim
    rw [hf.base] at hw' hclaim
    by_cases hne : w' = w
    · subst hne
      rw [hw] at hw'
      cases hw'
      exact draftStep_pure hw hclaim ha (hs.processing _ _ _ hw hclaim) h
    · rw [hf.drafts w' hne]
      exact (hs.processing w' m' tok' hw' hclaim).mono (hf.objects m'.job)
  · intro w' m' tok' hw' hclaim
    rw [hf.base] at hw' hclaim
    have hne : w' ≠ w := by
      rintro rfl
      rw [hw] at hw'
      cases hw'
    rw [hf.drafts w' hne]
    exact (hs.completing w' m' tok' hw' hclaim).mono (hf.objects m'.job)
  · intro j document hrow
    rw [hf.rows] at hrow
    exact (hs.pinned j document hrow).mono hf.rows (draftStep_outputs h) (hf.objects j)

/-- A step of the job system keeps the invariant: `mark_completed` pins what the draft of a worker
that has the claim names. -/
lemma PlanInv.job (hs : PlanInv cfg s) {a : Jobs.Action}
    (hstep : Jobs.step cfg.jobs s.base a = some s'.base)
    (he : JobEffect cfg.traced s s'.base a s') : PlanInv cfg s' := by
  have hissued := tokensIssued_step hs.issued hstep
  -- a worker that has the claim had it before
  have hclaimed : ∀ {w m p tok}, s.base.handlers w = some ⟨m, p⟩ → p.token? = some tok →
      s'.base.ClaimedBy m.job tok → s.base.ClaimedBy m.job tok := fun {w m p tok} hw hp =>
    claimedBy_of_step hstep (hs.issued w tok ((ownToken_eq hw).trans hp))
  generalize hbase : s'.base = base at *
  cases he with
  | same hstart hsucceed hcompletes =>
    refine ⟨hissued, fun w m tok hw hclaim => ?_, fun w m tok hw hclaim => ?_, hs.pinned⟩
    · rcases step_processing hstep hw with hw | ⟨rfl, hw⟩
      · exact hs.processing w m tok hw (hclaimed hw rfl hclaim)
      · exact absurd hw (hstart w m tok rfl)
    · rcases step_completing hstep hw with hw | ⟨-, hw⟩
      · exact hs.completing w m tok hw (hclaimed hw rfl hclaim)
      · exact hs.processing w m tok hw (hclaimed hw rfl hclaim)
  | start w m tok ha hw =>
    subst ha
    refine ⟨hissued, fun w' m' tok' hw' hclaim => ?_, fun w' m' tok' hw' hclaim => ?_, hs.pinned⟩
    · by_cases hne : w' = w
      · subst hne
        simp [Draft.Pure]
      · rcases step_processing hstep hw' with hw' | ⟨haw, -⟩
        · simpa [hne] using hs.processing w' m' tok' hw' (hclaimed hw' rfl hclaim)
        · cases haw
          exact absurd rfl hne
    · rcases step_completing hstep hw' with hcompl | ⟨haw, -⟩
      · have hne : w' ≠ w := by
          rintro rfl
          rw [hw] at hcompl
          cases hcompl
        simpa [hne] using hs.completing w' m' tok' hcompl (hclaimed hcompl rfl hclaim)
      · cases haw
  | complete w j plan pins ha hj hd =>
    subst ha
    obtain ⟨m, tok, row, hw, rfl, hr, ht⟩ := completes?_eq_some.mp hj
    refine ⟨hissued, fun w' m' tok' hw' hclaim => ?_, fun w' m' tok' hw' hclaim => ?_,
      fun i document hrow => ?_⟩
    · rcases step_processing hstep hw' with hw' | ⟨haw, hw'⟩
      · exact hs.processing w' m' tok' hw' (hclaimed hw' rfl hclaim)
      · cases haw
        rw [hw] at hw'
        cases hw'
    · rcases step_completing hstep hw' with hw' | ⟨haw, -⟩
      · exact hs.completing w' m' tok' hw' (hclaimed hw' rfl hclaim)
      · cases haw
    · by_cases hi : i = m.job
      · subst hi
        have hpure := hs.completing w m tok hw ⟨row, hr, ht⟩
        rw [hd] at hpure
        exact ⟨plan, fun kind => ⟨pins kind, by simp, hpure kind⟩, by simp [Config.traced]⟩
      · obtain ⟨plan', hpins, houtput⟩ := hs.pinned i document (by simpa [hi] using hrow)
        exact ⟨plan', by simpa [hi] using hpins, by simpa [hi] using houtput⟩

/-- A step of a request keeps the invariant. -/
lemma PlanInv.sync (hs : PlanInv cfg s) {k : ℕ} {a : SyncAction}
    (ha : ¬ MixesPlans cfg s (.sync k a)) (h : syncStep cfg.traced s k a = some s') :
    PlanInv cfg s' := by
  cases a with
  | readRow | readJob | head =>
    simp only [syncStep] at h
    repeat' split at h
    all_goals cases h
    all_goals exact ⟨hs.issued, hs.processing, hs.completing, hs.pinned⟩
  | write =>
    simp only [syncStep] at h
    split at h
    · next j pin hk =>
      cases h
      refine ⟨hs.issued, hs.processing, hs.completing, fun i document hrow => ?_⟩
      by_cases hi : i = j
      · subst hi
        have hdocument : s.rows i .document = some document := by simpa using hrow
        obtain ⟨plan, hpins, houtput⟩ := hs.pinned i document hdocument
        have hplan : planOf (s.objects i .report) pin = some plan := by
          obtain ⟨pinned, hpinned, hplan⟩ := hpins .document
          rw [hdocument] at hpinned
          cases hpinned
          by_contra hother
          exact ha (.sync k i pin document hk hdocument fun heq => hother (heq.trans hplan))
        refine ⟨plan, fun kind => ?_, houtput⟩
        cases kind with
        | report => exact ⟨pin, by simp, hplan⟩
        | document => simpa using hpins .document
        | screenshots => simpa using hpins .screenshots
      · obtain ⟨plan, hpins, houtput⟩ := hs.pinned i document (by simpa [hi] using hrow)
        exact ⟨plan, by simpa [hi] using hpins, houtput⟩
    · cases h

/-- **The invariant is kept** by every step that is not of `MixesPlans`. -/
theorem planInv_step {a : Action Plan} (hs : PlanInv cfg s) (ha : ¬ MixesPlans cfg s a)
    (h : step cfg.traced s a = some s') : PlanInv cfg s' := by
  cases a with
  | job b =>
    obtain ⟨hstep, heffect⟩ := jobStep_effect h
    exact hs.job hstep heffect
  | draft w b =>
    simp only [step] at h
    split at h
    · next m tok hw => exact hs.draft hw ha h
    · cases h
  | sync k b => exact hs.sync ha h

/-- **The artifacts of a report come from one plan.** Along a run in which no worker that has the
claim reads back or takes over a rendering of another plan than its own, and no sync finds a report
of another plan than the pinned document, the three pinned artifacts of every report were rendered
from one accepted plan, and its output hash is the hash of that plan. -/
theorem same_plan (cfg : Config Plan Content Digest) (as : List (Action Plan))
    (h : EveryStep (step cfg.traced) (fun s a => ¬ MixesPlans cfg s a) .init as)
    (s : State Plan Content Digest) (hs : run (step cfg) .init as = some s) (j : JobId)
    (pins : Artifact → Pin Digest) (hpins : ∀ kind, s.rows j kind = some (pins kind)) :
    ∃ t plan, run (step cfg.traced) .init as = some t ∧ t.erase = s ∧
      (∀ kind, planOf (t.objects j kind) (pins kind) = some plan) ∧
      s.outputs j = some (cfg.sha256 (cfg.dumps plan)) := by
  have hrun : run (step cfg) (State.erase .init) as =
      (run (step cfg.traced) .init as).map State.erase := run_erase as
  rw [show State.erase (.init : State Plan (Plan × Content) Digest) = .init from rfl, hs] at hrun
  obtain ⟨t, ht, rfl⟩ := Option.map_eq_some_iff.mp hrun.symm
  have hinv : PlanInv cfg t :=
    run_invariant (fun _ _ _ hs ha ht => planInv_step hs ha ht) planInv_init h ht
  obtain ⟨plan, hplans, houtput⟩ := hinv.pinned j _ (hpins .document)
  refine ⟨t, plan, ht, rfl, fun kind => ?_, houtput⟩
  obtain ⟨pin, hpin, hplan⟩ := hplans kind
  have hsame : pin = pins kind := Option.some.inj (hpin.symm.trans (hpins kind))
  exact hsame ▸ hplan

/-! ## A sample -/

/-- The same condition as a test. -/
def mixesPlans [DecidableEq Plan] (cfg : Config Plan Content Digest)
    (s : State Plan (Plan × Content) Digest) : Action Plan → Bool
  | .draft w .readBack =>
    match s.base.handlers w, s.drafts w with
    | some ⟨m, .processing tok⟩, .readingBack plan done =>
      match nextArtifact done with
      | some kind => (s.base.jobs m.job).any (·.claimToken = some tok) &&
          (s.objects m.job kind).getLast?.any (·.1 ≠ plan)
      | none => false
    | _, _ => false
  | .draft w (.checkExisting false) =>
    match s.base.handlers w, s.drafts w with
    | some ⟨m, .processing tok⟩, .checking plan found =>
      match nextArtifact found with
      | some kind => (s.base.jobs m.job).any (·.claimToken = some tok) &&
          match latestPin cfg.traced (s.objects m.job kind) with
          | some pin => (pinsOf? (found ++ [pin])).any fun pins =>
            [.report, .document, .screenshots].any fun other =>
              planOf (s.objects m.job other) (pins other) ≠ some plan
          | none => false
      | none => false
    | _, _ => false
  | .sync k .write =>
    match s.syncs k with
    | some (.write j pin) => (s.rows j .document).any fun document =>
      planOf (s.objects j .report) pin ≠ planOf (s.objects j .document) document
    | _ => false
  | _ => false

lemma mixesPlans_of [DecidableEq Plan] {a : Action Plan} (h : MixesPlans cfg s a) :
    mixesPlans cfg s a = true := by
  cases h with
  | readBack w m tok plan done kind object hw hclaim hd hk hlatest hother =>
    obtain ⟨row, hr, ht⟩ := hclaim
    simp [mixesPlans, hw, hd, hk, hr, ht, hlatest, hother]
  | existing w m tok plan found kind other pin pins hw hclaim hd hk hlatest hpins hother =>
    obtain ⟨row, hr, ht⟩ := hclaim
    cases other <;> simp [mixesPlans, hw, hd, hk, hr, ht, hlatest, hpins, hother]
  | sync k j pin document hk hrow hother => simpa [mixesPlans, hk, hrow] using hother

/-- Plans are numbers, and an object lists the plan, the artifact and the archive noise it was
rendered from; a lease lasts 900 seconds. -/
def planConfig : Config ℕ (List ℕ) (List ℕ) where
  jobs := ⟨3, 900⟩
  render := fun _ plan kind noise => match kind with
    | .report => [plan, 0, noise]
    | .document => [plan, 1, noise]
    | .screenshots => [plan, 2, noise]
  dumps := fun plan => [plan]
  sha256 := id

/-- Worker `0` claims job `0`, finds no plan and asks the model. Its lease runs out and it loses
its connection; worker `1` takes the job over, finds no plan either and asks again. Both get an
answer and find no artifacts. Worker `1` uploads its report and its document. -/
def twoPlans : List (Action ℕ) :=
  [.job (.enqueue 0), .job (.dispatchPublish 0), .job (.dispatchMark 0),
    .job (.deliver 0 (.dispatched 0)), .job (.worker 0 (.claim 0)), .job (.worker 0 .proceed),
    .draft 0 (.loadPlan false)] ++
  List.replicate 901 (.job .tick) ++
  [.job (.worker 0 .disconnect), .job (.deliver 1 (.dispatched 0)), .job (.worker 1 (.claim 1)),
    .job (.worker 1 .proceed), .draft 1 (.loadPlan false), .draft 0 (.callModel 0),
    .draft 1 (.callModel 1), .draft 0 .savePlan, .draft 0 (.checkExisting false),
    .draft 1 .savePlan, .draft 1 (.checkExisting false), .draft 1 (.upload 0),
    .draft 1 .readBack, .draft 1 (.upload 0)]

/-- Worker `1` reads its document back, uploads the screenshots and completes the job. -/
def completeReport : List (Action ℕ) :=
  [.draft 1 .readBack, .draft 1 (.upload 0), .draft 1 .readBack, .job (.worker 1 .succeed),
    .job (.worker 1 .proceed)]

/-- Worker `0`, which has lost its lease, uploads its report and its document. -/
def lateUploads : List (Action ℕ) :=
  [.draft 0 (.upload 0), .draft 0 .readBack, .draft 0 (.upload 0)]

set_option maxRecDepth 100000 in
/-- `same_plan` speaks about the run in which the late uploads come after the job is completed. -/
theorem same_plan_lateUploads :
    ∃ s : State ℕ (List ℕ) (List ℕ),
      run (step planConfig) .init (twoPlans ++ completeReport ++ lateUploads) = some s ∧
        ∃ t plan, run (step planConfig.traced) .init (twoPlans ++ completeReport ++ lateUploads) =
            some t ∧ t.erase = s ∧
          planOf (t.objects 0 .report) ⟨0, [1, 0, 0]⟩ = some plan ∧
          s.outputs 0 = some (planConfig.sha256 (planConfig.dumps plan)) := by
  have htests : EveryStep (step planConfig.traced) (fun s a => mixesPlans planConfig s a = false)
      .init (twoPlans ++ completeReport ++ lateUploads) := by decide
  have hrows : (run (step planConfig) .init (twoPlans ++ completeReport ++ lateUploads)).map
      (fun s => [Artifact.report, .document, .screenshots].map (s.rows 0)) =
        some [some ⟨0, [1, 0, 0]⟩, some ⟨0, [1, 1, 0]⟩, some ⟨0, [1, 2, 0]⟩] := by decide
  obtain ⟨s, hs, hlist⟩ := Option.map_eq_some_iff.mp hrows
  simp only [List.map_cons, List.map_nil, List.cons.injEq, and_true] at hlist
  obtain ⟨t, plan, ht, herase, hplans, houtput⟩ := same_plan planConfig _
    (htests.mono fun s a htest hmixes => by
      rw [mixesPlans_of hmixes] at htest
      cases htest) s hs 0
    (fun | .report => ⟨0, [1, 0, 0]⟩ | .document => ⟨0, [1, 1, 0]⟩ | .screenshots => ⟨0, [1, 2, 0]⟩)
    (fun kind => by cases kind <;> simp [hlist])
  exact ⟨s, hs, t, plan, ht, herase, hplans .report, houtput⟩

set_option maxRecDepth 100000 in
/-- Plans can mix: worker `0` uploads its document between the upload and the read of worker `1`,
which pins it beside its own report. -/
theorem plans_can_mix :
    ¬ ∀ (cfg : Config ℕ (List ℕ) (List ℕ)) (as : List (Action ℕ))
      (s : State ℕ (List ℕ) (List ℕ)) (j : JobId) (pins : Artifact → Pin (List ℕ)),
      run (step cfg) .init as = some s → (∀ kind, s.rows j kind = some (pins kind)) →
        ∃ plan, (∀ kind, ∃ noise, (s.objects j kind)[(pins kind).version]? =
            some (cfg.render j plan kind noise)) ∧
          s.outputs j = some (cfg.sha256 (cfg.dumps plan)) := by
  intro h
  have hrun : (run (step planConfig) .init (twoPlans ++ lateUploads ++ completeReport)).map
      (fun s => ([Artifact.report, .document, .screenshots].map (s.rows 0),
        (s.objects 0 .report)[0]?, (s.objects 0 .document)[1]?)) =
        some ([some ⟨0, [1, 0, 0]⟩, some ⟨1, [0, 1, 0]⟩, some ⟨0, [1, 2, 0]⟩],
          some [1, 0, 0], some [0, 1, 0]) := by decide
  obtain ⟨s, hs, heq⟩ := Option.map_eq_some_iff.mp hrun
  obtain ⟨hlist, hreport, hdocument⟩ := by simpa only [Prod.mk.injEq] using heq
  simp only [List.map_cons, List.map_nil, List.cons.injEq, and_true] at hlist
  obtain ⟨plan, hplans, -⟩ := h planConfig _ s 0
    (fun | .report => ⟨0, [1, 0, 0]⟩ | .document => ⟨1, [0, 1, 0]⟩ | .screenshots => ⟨0, [1, 2, 0]⟩)
    hs (fun kind => by cases kind <;> simp [hlist])
  obtain ⟨noise, hr⟩ := hplans .report
  obtain ⟨noise', hd⟩ := hplans .document
  simp only [hreport, Option.some.injEq] at hr
  simp only [hdocument, Option.some.injEq] at hd
  have h1 : 1 = plan := (List.cons.inj hr).1
  have h0 : 0 = plan := (List.cons.inj hd).1
  omega

end Artifacts
