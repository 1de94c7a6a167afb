import NocReport.Jobs.Lifecycle
import NocReport.Jobs.NoLostJob
import NocReport.Report.ArtifactSystem

set_option relaxedAutoImplicit false
set_option autoImplicit false

/-!
# Report artifacts are pinned once

Two writers pin the artifacts of a report: `mark_completed`, in the transaction that completes
the job, and `_sync_completed_report`, for a completed job whose row it found unpinned. The
first writes an unpinned row as long as completed jobs stay completed. The second writes the
version it finds latest, in a row that may have been pinned since it was read.

## Main definitions

* `Artifacts.PinOf` — a pin names a stored version and the digest of its bytes.
* `Artifacts.Repins` — the steps from which a pinned artifact can come to be pinned again.
* `Artifacts.PinInv` — the invariant of the runs without them.

## Main results

* `Artifacts.pinInv_step`, `Artifacts.pin_step` — a step that is not of `Repins` keeps the
  invariant, and every pin.
* `Artifacts.pins_write_once` — along a run without such steps every pin stays as it is.
* `Artifacts.pins_not_write_once` — along every run it does not.
-/

/-! ## The phases of a worker -/

namespace Jobs

variable {cfg : Config} {s s' : State} {a : Action} {w : WorkerId} {m : Message} {tok : Token}

/-- A step changes the handler of a worker only when the worker takes it, or is delivered a
message, which it has not claimed yet. -/
lemma step_handlers (h : step cfg s a = some s') (w : WorkerId) :
    s'.handlers w = s.handlers w ∨
      (∃ m, s'.handlers w = some ⟨m, .received⟩ ∨ s'.handlers w = some ⟨m, .quarantining⟩) ∨
      ∃ b m p, a = .worker w b ∧ s.handlers w = some ⟨m, p⟩ ∧
        workerStep cfg s w m p b = some s' := by
  cases a with
  | tick | dispatchCrash | restartBroker | requeueCrash =>
    cases h
    exact .inl rfl
  | enqueue =>
    simp only [step] at h
    split at h
    · cases h
    · cases h
      exact .inl rfl
  | dispatchPublish | dispatchMark | expireRetry | requeueReset | requeuePublish =>
    simp only [step] at h
    split at h
    · cases h
      first
        | exact .inl rfl
        | (split <;> exact .inl rfl)
    · cases h
  | deliver w' m =>
    simp only [step] at h
    split at h
    · cases h
    · split at h
      · cases h
        by_cases hw : w = w'
        · subst hw
          right; left
          refine ⟨m, ?_⟩
          cases m.valid <;> simp
        · simp [hw]
      · cases h
  | worker w' b =>
    simp only [step] at h
    split at h
    · next hd hw' =>
      by_cases hw : w = w'
      · subst hw
        exact .inr (.inr ⟨b, hd.message, hd.phase, rfl, hw', h⟩)
      · exact .inl ((workerStep_frame hw' h).handlers w hw)
    · cases h

/-- How a worker comes into the phases around `process_message`. -/
def Phase.CameFrom (q : Phase) (b : WorkerAction) (p : Phase) : Prop :=
  match q with
  | .processing tok => p = .processing tok ∨ (b = .proceed ∧ p = .claimed tok)
  | .completing tok => p = .completing tok ∨ (b = .succeed ∧ p = .processing tok)
  | _ => True

lemma Phase.CameFrom.refl (b : WorkerAction) (p : Phase) : p.CameFrom b p := by
  cases p <;> simp [Phase.CameFrom]

lemma workerStep_cameFrom {m' : Message} {p q : Phase} {b : WorkerAction}
    (hw : s.handlers w = some ⟨m, p⟩) (h : workerStep cfg s w m p b = some s')
    (hw' : s'.handlers w = some ⟨m', q⟩) : m' = m ∧ q.CameFrom b p := by
  cases b with
  | crash =>
    cases h
    simp at hw'
  | disconnect =>
    simp only [workerStep] at h
    split at h
    · cases h
      rw [State.takeBack_handlers, hw] at hw'
      cases hw'
      exact ⟨rfl, .refl _ p⟩
    · cases h
  | renew =>
    simp only [workerStep] at h
    repeat' split at h
    all_goals cases h
    all_goals
      rw [State.updateJob_handlers, hw] at hw'
      cases hw'
      exact ⟨rfl, .refl _ p⟩
  | claim | succeed | raise =>
    simp only [workerStep] at h
    repeat' split at h
    all_goals cases h
    all_goals
      simp only [State.setPhase_handlers, Function.update_self] at hw'
      cases hw'
      simp [Phase.CameFrom]
  | proceed =>
    cases p with
    | _ =>
      simp only [workerStep, State.guardedUpdate] at h
      repeat' split at h
      all_goals cases h
      all_goals
        simp at hw'
        try
          obtain ⟨rfl, rfl⟩ := hw'
          simp [Phase.CameFrom]

/-- A worker is in `process_message` because it was before, or by the statement after the
claim. -/
lemma step_processing (h : step cfg s a = some s')
    (hw : s'.handlers w = some ⟨m, .processing tok⟩) :
    s.handlers w = some ⟨m, .processing tok⟩ ∨
      (a = .worker w .proceed ∧ s.handlers w = some ⟨m, .claimed tok⟩) := by
  rcases step_handlers h w with hsame | ⟨m', hd | hd⟩ | ⟨b, m', p, rfl, hwp, hstep⟩
  · exact .inl (hsame ▸ hw)
  · rw [hd] at hw
    cases hw
  · rw [hd] at hw
    cases hw
  · obtain ⟨rfl, rfl | ⟨rfl, rfl⟩⟩ := workerStep_cameFrom hwp hstep hw
    · exact .inl hwp
    · exact .inr ⟨rfl, hwp⟩

/-- A worker is about to run `mark_completed` because it was before, or because
`process_message` has returned. -/
lemma step_completing (h : step cfg s a = some s')
    (hw : s'.handlers w = some ⟨m, .completing tok⟩) :
    s.handlers w = some ⟨m, .completing tok⟩ ∨
      (a = .worker w .succeed ∧ s.handlers w = some ⟨m, .processing tok⟩) := by
  rcases step_handlers h w with hsame | ⟨m', hd | hd⟩ | ⟨b, m', p, rfl, hwp, hstep⟩
  · exact .inl (hsame ▸ hw)
  · rw [hd] at hw
    cases hw
  · rw [hd] at hw
    cases hw
  · obtain ⟨rfl, rfl | ⟨rfl, rfl⟩⟩ := workerStep_cameFrom hwp hstep hw
    · exact .inl hwp
    · exact .inr ⟨rfl, hwp⟩

/-- A job is completed because it was before, or by a `mark_completed` that matched its row. -/
lemma completed_of_step (h : step cfg s a = some s') {j : JobId} (hj : s'.Completed j) :
    s.Completed j ∨ ∃ w m tok row, a = .worker w .proceed ∧
      s.handlers w = some ⟨m, .completing tok⟩ ∧ m.job = j ∧ s.jobs j = some row ∧
      row.claimToken = some tok := by
  obtain ⟨row', hr', hc'⟩ := hj
  have hchange := step_rowChange h j
  rw [hr'] at hchange
  generalize hr : s.jobs j = r at hchange
  cases hchange with
  | same => exact .inl ⟨row', hr, hc'⟩
  | insert => cases hc'
  | claim w m tok row _ _ _ _ _ hrow =>
    obtain ⟨-, hp, -⟩ := JobRow.claimUpdate_eq_some hrow
    rw [hp] at hc'
    cases hc'
  | complete w m tok row ha hw hm htok => exact .inr ⟨w, m, tok, row, ha, hw, hm, rfl, htok⟩
  | fail w m tok _ row _ _ _ htok => simp [JobRow.markFailed, htok] at hc'
  | mark => cases hc'
  | bump n row => exact .inl ⟨row, hr, hc'⟩
  | renew w m p tok row =>
    refine .inl ⟨row, hr, ?_⟩
    unfold JobRow.renewJobLease at hc'
    split at hc' <;> exact hc'
  | reset row =>
    refine .inl ⟨row, hr, ?_⟩
    unfold JobRow.requeueReset at hc'
    split at hc'
    · cases hc'
    · exact hc'

end Jobs

namespace Artifacts

open Jobs Transition

variable {Plan Content Digest : Type} {cfg : Config Plan Content Digest}
  {s s' : State Plan Content Digest}

/-! ## Pins name stored versions -/

/-- The pin names a stored version and the digest of its bytes. -/
def PinOf (cfg : Config Plan Content Digest) (versions : List Content) (pin : Pin Digest) : Prop :=
  versions[pin.version]?.map cfg.sha256 = some pin.sha256

/-- Each pin read so far is in a relation with the artifact it was read for. -/
def EachPin (P : Artifact → Pin Digest → Prop) (done : List (Pin Digest)) : Prop :=
  ∀ i pin kind, done[i]? = some pin → nextArtifact (done.take i) = some kind → P kind pin

section EachPin

variable {P Q : Artifact → Pin Digest → Prop} {pin : Pin Digest} {done : List (Pin Digest)}

lemma EachPin.nil : EachPin P [] := by
  intro i pin kind h
  simp at h

lemma EachPin.mono (h : EachPin P done) (hPQ : ∀ kind pin, P kind pin → Q kind pin) :
    EachPin Q done :=
  fun i pin kind hi hk => hPQ kind pin (h i pin kind hi hk)

lemma EachPin.snoc (h : EachPin P done) {kind : Artifact} (hk : nextArtifact done = some kind)
    (hp : P kind pin) : EachPin P (done ++ [pin]) := by
  intro i p kind' hi hk'
  rcases Nat.lt_trichotomy i done.length with hlt | rfl | hgt
  · rw [List.getElem?_append_left hlt] at hi
    rw [List.take_append_of_le_length (Nat.le_of_lt hlt)] at hk'
    exact h i p kind' hi hk'
  · rw [List.getElem?_concat_length] at hi
    rw [List.take_left, hk] at hk'
    cases hi
    cases hk'
    exact hp
  · have hlen := (List.getElem?_eq_some_iff.mp hi).1
    simp only [List.length_append, List.length_singleton] at hlen
    omega

lemma EachPin.all (h : EachPin P done) {pins : Artifact → Pin Digest}
    (hp : pinsOf? done = some pins) (kind : Artifact) : P kind (pins kind) := by
  unfold pinsOf? at hp
  split at hp
  · cases hp
    cases kind with
    | report => exact h 0 _ .report rfl rfl
    | document => exact h 1 _ .document rfl rfl
    | screenshots => exact h 2 _ .screenshots rfl rfl
  · cases hp

end EachPin

/-- The metadata read so far names stored versions of the artifacts it was read for. -/
def PinsOf (cfg : Config Plan Content Digest) (objects : Artifact → List Content)
    (done : List (Pin Digest)) : Prop :=
  ∀ i pin kind, done[i]? = some pin → nextArtifact (done.take i) = some kind →
    PinOf cfg (objects kind) pin

/-- The metadata in a draft names stored versions. -/
def Draft.Stored (cfg : Config Plan Content Digest) (objects : Artifact → List Content) :
    Draft Plan Digest → Prop
  | .checking _ found => PinsOf cfg objects found
  | .uploading _ done | .readingBack _ done => PinsOf cfg objects done
  | .finished _ pins => ∀ kind, PinOf cfg (objects kind) (pins kind)
  | _ => True

section Pins

variable {versions versions' : List Content} {objects objects' : Artifact → List Content}
  {pin pin' : Pin Digest} {done : List (Pin Digest)}

lemma PinOf.lt (h : PinOf cfg versions pin) : pin.version < versions.length := by
  obtain ⟨content, hc, -⟩ := Option.map_eq_some_iff.mp h
  exact (List.getElem?_eq_some_iff.mp hc).1

/-- Versions are never deleted or overwritten. -/
lemma PinOf.mono (h : PinOf cfg versions pin) (hv : versions <+: versions') :
    PinOf cfg versions' pin := by
  obtain ⟨new, rfl⟩ := hv
  rw [PinOf, List.getElem?_append_left h.lt]
  exact h

/-- A version has one digest. -/
lemma PinOf.eq (h : PinOf cfg versions pin) (h' : PinOf cfg versions pin')
    (hv : pin.version = pin'.version) : pin = pin' := by
  have hsha : some pin.sha256 = some pin'.sha256 := by
    rw [← h, ← h', hv]
  obtain ⟨v, sha⟩ := pin
  obtain ⟨v', sha'⟩ := pin'
  cases hv
  cases hsha
  rfl

lemma latestPin_eq_some (h : latestPin cfg versions = some pin) :
    PinOf cfg versions pin ∧ versions.length = pin.version + 1 := by
  obtain ⟨content, hc, rfl⟩ := Option.map_eq_some_iff.mp h
  have hne : versions ≠ [] := by
    rintro rfl
    cases hc
  have hpos := List.length_pos_iff.mpr hne
  refine ⟨?_, by dsimp only; omega⟩
  rw [PinOf, ← List.getLast?_eq_getElem?, hc]
  rfl

lemma PinsOf.nil : PinsOf cfg objects [] := EachPin.nil

lemma PinsOf.mono (h : PinsOf cfg objects done) (hv : ∀ kind, objects kind <+: objects' kind) :
    PinsOf cfg objects' done :=
  EachPin.mono h fun kind _ hp => PinOf.mono hp (hv kind)

lemma PinsOf.snoc (h : PinsOf cfg objects done) {kind : Artifact}
    (hk : nextArtifact done = some kind) (hp : PinOf cfg (objects kind) pin) :
    PinsOf cfg objects (done ++ [pin]) :=
  EachPin.snoc h hk hp

lemma PinsOf.all (h : PinsOf cfg objects done) {pins : Artifact → Pin Digest}
    (hp : pinsOf? done = some pins) (kind : Artifact) : PinOf cfg (objects kind) (pins kind) :=
  EachPin.all h hp kind

lemma Draft.Stored.mono {d : Draft Plan Digest} (h : d.Stored cfg objects)
    (hv : ∀ kind, objects kind <+: objects' kind) : d.Stored cfg objects' := by
  cases d with
  | loading | asking | saving => trivial
  | checking | uploading | readingBack => exact PinsOf.mono h hv
  | finished plan pins => exact fun kind => (h kind).mono (hv kind)

end Pins

/-! ## What the steps do -/

/-- A step of worker `w` that drafts the artifacts of job `j`, or of no worker, leaves the job
system, the rows and the requests alone, and deletes no version of an artifact. -/
structure DraftFrame (cfg : Config Plan Content Digest) (s s' : State Plan Content Digest)
    (w : WorkerId) (j : JobId) : Prop where
  base : s'.base = s.base
  rows : s'.rows = s.rows
  syncs : s'.syncs = s.syncs
  drafts : ∀ w', w' ≠ w → s'.drafts w' = s.drafts w'
  objects : ∀ i kind, s.objects i kind <+: s'.objects i kind
  stored : (s.drafts w).Stored cfg (s.objects j) → (s'.drafts w).Stored cfg (s'.objects j)

/-- A drafting step that changes the draft of its worker only, to one whose metadata names
stored versions if it did before. -/
lemma DraftFrame.of_goOn {w : WorkerId} {j : JobId} {d : Draft Plan Digest}
    (hs : s' = { s with plans := s'.plans, drafts := Function.update s.drafts w d })
    (hd : (s.drafts w).Stored cfg (s.objects j) → d.Stored cfg (s.objects j)) :
    DraftFrame cfg s s' w j := by
  refine ⟨?_, ?_, ?_, ?_, ?_, ?_⟩
  · rw [hs]
  · rw [hs]
  · rw [hs]
  · intro w' hw
    rw [hs]
    simp [hw]
  · intro i kind
    have hobjects : s'.objects = s.objects := by rw [hs]
    exact hobjects ▸ List.prefix_rfl
  · intro h
    rw [hs]
    simpa using hd h

lemma draftStep_frame {w : WorkerId} {j : JobId} {a : DraftAction Plan}
    (h : draftStep cfg s w j (s.drafts w) a = some s') : DraftFrame cfg s s' w j := by
  cases a with
  | loadPlan lost =>
    simp only [draftStep] at h
    repeat' split at h
    all_goals cases h
    · exact .of_goOn rfl fun _ => trivial
    · exact .of_goOn rfl fun _ => PinsOf.nil
    · exact .of_goOn rfl fun _ => trivial
  | callModel plan =>
    simp only [draftStep] at h
    split at h <;> cases h
    exact .of_goOn rfl fun _ => trivial
  | savePlan =>
    simp only [draftStep] at h
    split at h <;> cases h
    exact .of_goOn rfl fun _ => PinsOf.nil
  | checkExisting lost =>
    simp only [draftStep] at h
    split at h
    · next plan found hd =>
      split at h
      · next kind hk =>
        split at h
        · next pin hpin =>
          have hsnoc : (s.drafts w).Stored cfg (s.objects j) →
              PinsOf cfg (s.objects j) (found ++ [pin]) := by
            intro hst
            rw [hd] at hst
            exact PinsOf.snoc hst hk (latestPin_eq_some hpin).1
          split at h
          · cases h
            exact .of_goOn rfl fun _ => PinsOf.nil
          · split at h
            · next pins hp =>
              cases h
              exact .of_goOn rfl fun hst => (hsnoc hst).all hp
            · cases h
              exact .of_goOn rfl hsnoc
        · cases h
          exact .of_goOn rfl fun _ => PinsOf.nil
      · cases h
    · cases h
  | upload noise =>
    simp only [draftStep] at h
    split at h
    · next plan done hd =>
      split at h
      · next kind hk =>
        cases h
        have hobj : ∀ i kind', s.objects i kind' <+: Function.update s.objects j
            (Function.update (s.objects j) kind
              (s.objects j kind ++ [cfg.render j plan kind noise])) i kind' := by
          intro i kind'
          by_cases hi : i = j
          · subst hi
            by_cases hkind : kind' = kind
            · subst hkind
              simp
            · simp [hkind]
          · simp [hi]
        refine ⟨rfl, rfl, rfl, fun w' hw => by simp [hw], hobj, fun hst => ?_⟩
        rw [hd] at hst
        simpa [Draft.Stored] using PinsOf.mono hst (hobj j)
      · cases h
    · cases h
  | readBack =>
    simp only [draftStep] at h
    split at h
    · next plan done hd =>
      split at h
      · next kind hk =>
        split at h
        · next pin hpin =>
          have hsnoc : (s.drafts w).Stored cfg (s.objects j) →
              PinsOf cfg (s.objects j) (done ++ [pin]) := by
            intro hst
            rw [hd] at hst
            exact PinsOf.snoc hst hk (latestPin_eq_some hpin).1
          split at h
          · next pins hp =>
            cases h
            exact .of_goOn rfl fun hst => (hsnoc hst).all hp
          · cases h
            exact .of_goOn rfl hsnoc
        · cases h
      · cases h
    · cases h

/-- The ways in which a step of the job system changes the drafts and the rows. -/
inductive JobEffect (cfg : Config Plan Content Digest) (s : State Plan Content Digest)
    (base : Jobs.State) (a : Jobs.Action) : State Plan Content Digest → Prop
  /-- the step neither starts a draft nor runs `mark_completed` on a row of its token; a draft it
  returns is finished -/
  | same (hclaimed : ∀ w m tok, a = .worker w .proceed → s.base.handlers w ≠ some ⟨m, .claimed tok⟩)
      (hsucceed : ∀ w, a = .worker w .succeed → ∃ plan pins, s.drafts w = .finished plan pins)
      (hcompletes : ∀ w j plan pins, a = .worker w .proceed → completes? s.base w = some j →
        s.drafts w ≠ .finished plan pins) :
      JobEffect cfg s base a { s with base }
  /-- `process_message` starts -/
  | start (w : WorkerId) (m : Message) (tok : Token) (ha : a = .worker w .proceed)
      (hw : s.base.handlers w = some ⟨m, .claimed tok⟩) :
      JobEffect cfg s base a { s with base, drafts := Function.update s.drafts w .loading }
  /-- `mark_completed` pins the artifacts of a finished draft -/
  | complete (w : WorkerId) (j : JobId) (plan : Plan) (pins : Artifact → Pin Digest)
      (ha : a = .worker w .proceed) (hj : completes? s.base w = some j)
      (hd : s.drafts w = .finished plan pins) :
      JobEffect cfg s base a { s with
        base
        rows := Function.update s.rows j fun kind => some (pins kind)
        outputs := Function.update s.outputs j (some (cfg.sha256 (cfg.dumps plan))) }

lemma jobStep_effect {a : Jobs.Action} (h : jobStep cfg s a = some s') :
    Jobs.step cfg.jobs s.base a = some s'.base ∧ JobEffect cfg s s'.base a s' := by
  refine ⟨jobStep_base h, ?_⟩
  rw [jobStep, Option.bind_eq_some_iff] at h
  obtain ⟨base, hbase, h⟩ := h
  split at h
  · next w =>
    split at h
    · next plan pins hd =>
      cases h
      refine .same (by simp) ?_ (by simp)
      rintro _ ⟨⟩
      exact ⟨plan, pins, hd⟩
    · cases h
  · next w =>
    split at h
    · next m tok hw =>
      cases h
      exact .start w m tok rfl hw
    · next hclaimed =>
      split at h
      · next j plan pins hj hd =>
        cases h
        exact .complete w j plan pins rfl hj hd
      · next hcompletes =>
        cases h
        refine .same ?_ (by simp) ?_
        · rintro _ m tok ⟨⟩ hw
          exact hclaimed m tok hw
        · rintro _ j plan pins ⟨⟩ hj hd
          exact hcompletes j plan pins hj hd
  · next hsucceed hproceed =>
    cases h
    refine .same ?_ ?_ ?_
    · rintro w m tok rfl
      exact absurd rfl (hproceed w)
    · rintro w rfl
      exact absurd rfl (hsucceed w)
    · rintro w j plan pins rfl
      exact absurd rfl (hproceed w)

/-! ## The invariant -/

/-- The steps from which a pinned artifact can come to be pinned again. -/
inductive Repins (s : State Plan Content Digest) : Action Plan → Prop
  /-- `mark_retrying` on a completed row: the job can be claimed and completed again -/
  | reopen (a : Jobs.Action) (h : MarksCompleted s.base a) : Repins s (.job a)
  /-- `head_object` for a sync whose report row has been pinned since it was read, when the
  report has a later version than the pinned one -/
  | stale (k : ℕ) (j : JobId) (pin : Pin Digest) (hk : s.syncs k = some (.head j))
      (hp : s.rows j .report = some pin) (hv : pin.version + 1 < (s.objects j .report).length) :
      Repins s (.sync k .head)

/-- The same as a test. -/
def repins (s : State Plan Content Digest) : Action Plan → Bool
  | .job a => marksCompleted s.base a
  | .sync k .head =>
    match s.syncs k with
    | some (.head j) =>
      (s.rows j .report).any fun pin => pin.version + 1 < (s.objects j .report).length
    | _ => false
  | _ => false

lemma repins_iff {a : Action Plan} : repins s a = true ↔ Repins s a := by
  constructor
  · intro h
    unfold repins at h
    split at h
    · exact .reopen _ (marksCompleted_iff.mp h)
    · split at h
      · next k j hk =>
        cases hp : s.rows j .report with
        | none =>
          rw [hp] at h
          cases h
        | some pin =>
          rw [hp] at h
          exact .stale _ j pin hk hp (by simpa using h)
      · cases h
    · cases h
  · rintro (⟨a, h⟩ | ⟨k, j, pin, hk, hp, hv⟩)
    · exact marksCompleted_iff.mpr h
    · simpa [repins, hk, hp] using hv

instance (s : State Plan Content Digest) (a : Action Plan) : Decidable (Repins s a) :=
  decidable_of_iff _ repins_iff

/-- What holds in every state of a run without such steps. -/
structure PinInv (cfg : Config Plan Content Digest) (s : State Plan Content Digest) : Prop where
  unclaimed : CompletedUnclaimed s.base
  /-- the artifacts of a completed job are pinned -/
  pinned : ∀ j, s.base.Completed j → ∀ kind, ∃ pin, s.rows j kind = some pin
  completed : ∀ j kind pin, s.rows j kind = some pin → s.base.Completed j
  stored : ∀ j kind pin, s.rows j kind = some pin → PinOf cfg (s.objects j kind) pin
  processing : ∀ w m tok, s.base.handlers w = some ⟨m, .processing tok⟩ →
    (s.drafts w).Stored cfg (s.objects m.job)
  completing : ∀ w m tok, s.base.handlers w = some ⟨m, .completing tok⟩ →
    (s.drafts w).Stored cfg (s.objects m.job) ∧ ∃ plan pins, s.drafts w = .finished plan pins
  /-- a sync goes on to `head_object` for completed jobs only -/
  found : ∀ k j, s.syncs k = some (.head j) → s.base.Completed j
  /-- a sync is about to pin the version that is pinned already -/
  written : ∀ k j pin, s.syncs k = some (.write j pin) → s.rows j .report = some pin

lemma pinInv_init : PinInv cfg State.init where
  unclaimed := completedUnclaimed_init
  pinned := by rintro j ⟨row, h, -⟩; cases h
  completed := by intro j kind pin h; cases h
  stored := by intro j kind pin h; cases h
  processing := by intro w m tok h; cases h
  completing := by intro w m tok h; cases h
  found := by intro k j h; cases h
  written := by intro k j pin h; cases h

/-- A drafting step of a worker in `process_message` keeps the invariant. -/
lemma PinInv.draft (hs : PinInv cfg s) {w : WorkerId} {m : Message} {tok : Token}
    (hw : s.base.handlers w = some ⟨m, .processing tok⟩) (hf : DraftFrame cfg s s' w m.job) :
    PinInv cfg s' := by
  refine ⟨?_, ?_, ?_, ?_, ?_, ?_, ?_, ?_⟩
  · rw [hf.base]
    exact hs.unclaimed
  · rw [hf.base, hf.rows]
    exact hs.pinned
  · rw [hf.base, hf.rows]
    exact hs.completed
  · intro j kind pin hp
    rw [hf.rows] at hp
    exact (hs.stored j kind pin hp).mono (hf.objects j kind)
  · intro w' m' tok' hw'
    rw [hf.base] at hw'
    by_cases hne : w' = w
    · subst hne
      rw [hw] at hw'
      cases hw'
      exact hf.stored (hs.processing _ _ _ hw)
    · rw [hf.drafts w' hne]
      exact (hs.processing w' m' tok' hw').mono (hf.objects m'.job)
  · intro w' m' tok' hw'
    rw [hf.base] at hw'
    have hne : w' ≠ w := by
      rintro rfl
      rw [hw] at hw'
      cases hw'
    rw [hf.drafts w' hne]
    obtain ⟨hst, hfin⟩ := hs.completing w' m' tok' hw'
    exact ⟨hst.mono (hf.objects m'.job), hfin⟩
  · rw [hf.syncs, hf.base]
    exact hs.found
  · rw [hf.syncs, hf.rows]
    exact hs.written

/-- The row that `mark_completed` of worker `w` matches. -/
lemma completes?_eq_some {s : Jobs.State} {w : WorkerId} {j : JobId} :
    completes? s w = some j ↔ ∃ m tok row, s.handlers w = some ⟨m, .completing tok⟩ ∧ m.job = j ∧
      s.jobs j = some row ∧ row.claimToken = some tok := by
  constructor
  · intro h
    unfold completes? at h
    repeat' split at h
    all_goals cases h
    next _ m tok hw _ row hr ht => exact ⟨m, tok, row, hw, rfl, hr, JobRow.tokenMatches_some.mp ht⟩
  · rintro ⟨m, tok, row, hw, rfl, hr, ht⟩
    simp [completes?, hw, hr, ht]

/-- `mark_completed` on a row of its token completes the job, which was not completed. -/
lemma completed_completes {jcfg : Jobs.Config} {s s' : Jobs.State} {w : WorkerId} {j : JobId}
    (hs : CompletedUnclaimed s) (hj : completes? s w = some j)
    (h : Jobs.step jcfg s (.worker w .proceed) = some s') : ¬ s.Completed j ∧ s'.Completed j := by
  obtain ⟨m, tok, row, hw, rfl, hr, ht⟩ := completes?_eq_some.mp hj
  constructor
  · rintro ⟨row', hr', hc⟩
    rw [hr] at hr'
    cases hr'
    rw [hs m.job row hr hc] at ht
    cases ht
  · simp only [Jobs.step, hw, workerStep] at h
    cases h
    refine ⟨(row.markCompleted (some tok)).1, ?_, ?_⟩ <;>
      simp [State.guardedUpdate, hr, JobRow.markCompleted, ht]

/-- A job-system step that is not a `mark_retrying` on a completed row keeps the invariant. -/
lemma PinInv.job (hs : PinInv cfg s) {a : Jobs.Action} (ha : ¬ MarksCompleted s.base a)
    (hstep : Jobs.step cfg.jobs s.base a = some s'.base) (he : JobEffect cfg s s'.base a s') :
    PinInv cfg s' := by
  have hunclaimed := completedUnclaimed_step hs.unclaimed hstep
  have hkeep : ∀ j, s.base.Completed j → s'.base.Completed j :=
    fun j => completed_step hs.unclaimed ha hstep
  -- a job the step completes is completed by the worker of a finished draft
  have hnew : ∀ j, s'.base.Completed j → s.base.Completed j ∨ ∃ w plan pins,
      a = .worker w .proceed ∧ completes? s.base w = some j ∧ s.drafts w = .finished plan pins := by
    intro j hj
    rcases completed_of_step hstep hj with hj | ⟨w, m, tok, row, rfl, hw, hm, hr, ht⟩
    · exact .inl hj
    · obtain ⟨-, plan, pins, hd⟩ := hs.completing w m tok hw
      exact .inr ⟨w, plan, pins, rfl, completes?_eq_some.mpr ⟨m, tok, row, hw, hm, hr, ht⟩, hd⟩
  generalize hbase : s'.base = base at *
  cases he with
  | same hclaimed hsucceed hcompletes =>
    refine ⟨hunclaimed, ?_, ?_, hs.stored, ?_, ?_, ?_, hs.written⟩
    · intro j hj kind
      rcases hnew j hj with hj | ⟨w, plan, pins, rfl, hcj, hd⟩
      · exact hs.pinned j hj kind
      · exact absurd hd (hcompletes w j plan pins rfl hcj)
    · exact fun j kind pin hp => hkeep j (hs.completed j kind pin hp)
    · intro w m tok hw
      rcases step_processing hstep hw with hw | ⟨rfl, hw⟩
      · exact hs.processing w m tok hw
      · exact absurd hw (hclaimed w m tok rfl)
    · intro w m tok hw
      rcases step_completing hstep hw with hw | ⟨rfl, hw⟩
      · exact hs.completing w m tok hw
      · exact ⟨hs.processing w m tok hw, hsucceed w rfl⟩
    · exact fun k j hk => hkeep j (hs.found k j hk)
  | start w m tok ha' hw =>
    subst ha'
    refine ⟨hunclaimed, ?_, ?_, hs.stored, ?_, ?_, ?_, hs.written⟩
    · intro j hj kind
      rcases hnew j hj with hj | ⟨w', plan, pins, haw, hcj, hd⟩
      · exact hs.pinned j hj kind
      · cases haw
        obtain ⟨m', tok', row, hw', -⟩ := completes?_eq_some.mp hcj
        rw [hw] at hw'
        cases hw'
    · exact fun j kind pin hp => hkeep j (hs.completed j kind pin hp)
    · intro w' m' tok' hw'
      by_cases hne : w' = w
      · subst hne
        simp [Draft.Stored]
      · rcases step_processing hstep hw' with hw' | ⟨haw, -⟩
        · simpa [hne] using hs.processing w' m' tok' hw'
        · cases haw
          exact absurd rfl hne
    · intro w' m' tok' hw'
      rcases step_completing hstep hw' with hcompl | ⟨haw, -⟩
      · have hne : w' ≠ w := by
          rintro rfl
          rw [hw] at hcompl
          cases hcompl
        simpa [hne] using hs.completing w' m' tok' hcompl
      · cases haw
    · exact fun k j hk => hkeep j (hs.found k j hk)
  | complete w j plan pins ha' hj hd =>
    subst ha'
    obtain ⟨hold, hdone⟩ := completed_completes hs.unclaimed hj hstep
    obtain ⟨m, tok, row, hw, rfl, -, -⟩ := completes?_eq_some.mp hj
    -- the row was not pinned, since the job was not completed
    have hfree : ∀ i kind pin, s.rows i kind = some pin → i ≠ m.job := by
      rintro i kind pin hp rfl
      exact hold (hs.completed _ kind pin hp)
    refine ⟨hunclaimed, ?_, ?_, ?_, ?_, ?_, ?_, ?_⟩
    · intro i hi kind
      by_cases him : i = m.job
      · subst him
        simp
      · rcases hnew i hi with hi | ⟨w', plan', pins', haw, hcj, -⟩
        · simpa [him] using hs.pinned i hi kind
        · cases haw
          rw [hj] at hcj
          cases hcj
          exact absurd rfl him
    · intro i kind pin hp
      by_cases him : i = m.job
      · subst him
        exact hdone
      · exact hkeep i (hs.completed i kind pin (by simpa [him] using hp))
    · intro i kind pin hp
      by_cases him : i = m.job
      · subst him
        have hst := (hs.completing w m tok hw).1
        rw [hd] at hst
        simp only [Function.update_self, Option.some.injEq] at hp
        rw [← hp]
        exact hst kind
      · exact hs.stored i kind pin (by simpa [him] using hp)
    · intro w' m' tok' hw'
      rcases step_processing hstep hw' with hw' | ⟨haw, hw'⟩
      · exact hs.processing w' m' tok' hw'
      · cases haw
        rw [hw] at hw'
        cases hw'
    · intro w' m' tok' hw'
      rcases step_completing hstep hw' with hw' | ⟨haw, -⟩
      · exact hs.completing w' m' tok' hw'
      · cases haw
    · exact fun k i hk => hkeep i (hs.found k i hk)
    · intro k i pin hk
      have hp := hs.written k i pin hk
      simpa [hfree i _ pin hp] using hp

/-- A request that goes on to `head_object` for a completed job, or to pin what is pinned,
keeps the invariant. -/
lemma PinInv.setSync (hs : PinInv cfg s) (k : ℕ) (c : Option (Sync Digest))
    (hhead : ∀ j, c = some (.head j) → s.base.Completed j)
    (hwrite : ∀ j pin, c = some (.write j pin) → s.rows j .report = some pin) :
    PinInv cfg { s with syncs := Function.update s.syncs k c } := by
  refine ⟨hs.unclaimed, hs.pinned, hs.completed, hs.stored, hs.processing, hs.completing, ?_, ?_⟩
  · intro k' j hk
    by_cases hkk : k' = k
    · subst hkk
      exact hhead j (by simpa using hk)
    · exact hs.found k' j (by simpa [hkk] using hk)
  · intro k' j pin hk
    by_cases hkk : k' = k
    · subst hkk
      exact hwrite j pin (by simpa using hk)
    · exact hs.written k' j pin (by simpa [hkk] using hk)

/-- `head_object` finds the pinned version, unless the sync is late. -/
lemma PinInv.latest (hs : PinInv cfg s) {k : ℕ} {j : JobId} {pin : Pin Digest}
    (ha : ¬ Repins s (.sync k .head)) (hk : s.syncs k = some (.head j))
    (hlatest : latestPin cfg (s.objects j .report) = some pin) :
    s.rows j .report = some pin := by
  obtain ⟨pinned, hp⟩ := hs.pinned j (hs.found k j hk) .report
  obtain ⟨hof, hlen⟩ := latestPin_eq_some hlatest
  have hst := hs.stored j .report pinned hp
  have hlt := hst.lt
  have hnew : ¬ pinned.version + 1 < (s.objects j .report).length :=
    fun hv => ha (.stale k j pinned hk hp hv)
  rw [hp, hst.eq hof (by omega)]

/-- Every other step of a request keeps the invariant and leaves the pins as they are. -/
lemma PinInv.sync (hs : PinInv cfg s) {k : ℕ} {a : SyncAction} (ha : ¬ Repins s (.sync k a))
    (h : syncStep cfg s k a = some s') : PinInv cfg s' ∧ s'.rows = s.rows := by
  cases a with
  | readRow j =>
    simp only [syncStep] at h
    split at h <;> cases h
    exact ⟨hs.setSync k _ (by simp) (by simp), rfl⟩
  | readJob =>
    simp only [syncStep] at h
    split at h
    · split at h
      · next row hr =>
        cases h
        refine ⟨hs.setSync k _ ?_ ?_, rfl⟩
        · intro j' hj
          split at hj
          · next hc =>
            cases hj
            exact ⟨row, hr, hc.1⟩
          · cases hj
        · intro j' pin hj
          split at hj <;> cases hj
      · cases h
    · cases h
  | head =>
    simp only [syncStep] at h
    split at h
    · next j hk =>
      cases h
      refine ⟨hs.setSync k _ (by simp) ?_, rfl⟩
      intro j' pin hj
      obtain ⟨latest, hlatest, hpin⟩ := Option.map_eq_some_iff.mp hj
      cases hpin
      exact hs.latest ha hk hlatest
    · cases h
  | write =>
    simp only [syncStep] at h
    split at h
    · next j pin hk =>
      cases h
      have hrows : Function.update s.rows j (Function.update (s.rows j) .report (some pin)) =
          s.rows := by
        rw [← hs.written k j pin hk, Function.update_eq_self, Function.update_eq_self]
      rw [hrows]
      exact ⟨hs.setSync k none (by simp) (by simp), rfl⟩
    · cases h

/-- **The invariant is kept** by every step that is not of `Repins`. -/
theorem pinInv_step {a : Action Plan} (hs : PinInv cfg s) (ha : ¬ Repins s a)
    (h : step cfg s a = some s') : PinInv cfg s' := by
  cases a with
  | job b =>
    obtain ⟨hstep, heffect⟩ := jobStep_effect h
    exact hs.job (fun hb => ha (.reopen b hb)) hstep heffect
  | draft w b =>
    simp only [step] at h
    split at h
    · next m tok hw => exact hs.draft hw (draftStep_frame h)
    · cases h
  | sync k b => exact (hs.sync ha h).1

/-- **The pins are kept** by every step that is not of `Repins`: `mark_completed` pins the
artifacts of a job that was not completed, and so not pinned, and a sync the version that is
pinned already. -/
theorem pin_step {a : Action Plan} (hs : PinInv cfg s) (ha : ¬ Repins s a)
    (h : step cfg s a = some s') {j : JobId} {kind : Artifact} {pin : Pin Digest}
    (hp : s.rows j kind = some pin) : s'.rows j kind = some pin := by
  cases a with
  | job b =>
    obtain ⟨hstep, heffect⟩ := jobStep_effect h
    generalize s'.base = base at hstep heffect
    cases heffect with
    | same | start => exact hp
    | complete w i plan pins ha' hi hd =>
      subst ha'
      have hne : j ≠ i := by
        rintro rfl
        exact (completed_completes hs.unclaimed hi hstep).1 (hs.completed j kind pin hp)
      simpa [hne] using hp
  | draft w b =>
    simp only [step] at h
    split at h
    · rw [(draftStep_frame h).rows]
      exact hp
    · cases h
  | sync k b =>
    rw [(hs.sync ha h).2]
    exact hp

/-- **Artifacts are pinned once.** Along a run in which no `mark_retrying` finds a completed row
and no late sync finds a version later than the pinned one, a pin stays as it is. -/
theorem pins_write_once (cfg : Config Plan Content Digest) (as : List (Action Plan))
    (h : EveryStep (step cfg) (fun s a => ¬ Repins s a) .init as) (j : JobId) (kind : Artifact)
    (pin : Pin Digest) :
    StaysTrue (step cfg) (fun s => s.rows j kind = some pin) .init as :=
  staysTrue_of_everyStep (fun _ _ _ hs ha ht => pinInv_step hs ha ht)
    (fun _ _ _ hs ha ht hp => pin_step hs ha ht hp) pinInv_init h

/-- One plan, whose artifacts are rendered to their archive noise; a lease lasts 900 seconds. -/
def sampleConfig : Config Unit ℕ ℕ where
  jobs := ⟨3, 900⟩
  render := fun _ _ _ noise => noise
  dumps := fun _ => 0
  sha256 := id

/-- Worker `w`, in `process_message`, finds a saved plan and no artifacts, uploads the three
artifacts and completes the job. -/
def draftFrom (w : WorkerId) (noise : ℕ) : List (Action Unit) :=
  [.draft w (.loadPlan false), .draft w (.checkExisting false),
    .draft w (.upload noise), .draft w .readBack, .draft w (.upload noise), .draft w .readBack,
    .draft w (.upload noise), .draft w .readBack, .job (.worker w .succeed),
    .job (.worker w .proceed)]

/-- A request reads the report row of job `0`, finds the job completed and reads the latest
version of its report. -/
def lateSync : List (Action Unit) := [.sync 0 .readJob, .sync 0 .head, .sync 0 .write]

/-- A request reads the unpinned row of job `0`, which worker `0` has claimed and for which it
has saved a plan. Its lease runs out and it loses its connection; worker `1` takes the job over
and completes it. -/
def takenOverRun : List (Action Unit) :=
  [.job (.enqueue 0), .job (.dispatchPublish 0), .job (.dispatchMark 0),
    .job (.deliver 0 (.dispatched 0)), .job (.worker 0 (.claim 0)), .job (.worker 0 .proceed),
    .draft 0 (.loadPlan false), .draft 0 (.callModel ()), .draft 0 .savePlan,
    .draft 0 (.checkExisting false), .sync 0 (.readRow 0)] ++
  List.replicate 901 (.job .tick) ++
  [.job (.worker 0 .disconnect), .job (.deliver 1 (.dispatched 0)), .job (.worker 1 (.claim 1)),
    .job (.worker 1 .proceed)] ++ draftFrom 1 0

/-- The version of the report pinned for job `0` after a run from the empty system. -/
def pinnedAfter (as : List (Action Unit)) : Option (Option (Pin ℕ)) :=
  (run (step sampleConfig) .init as).map fun s => s.rows 0 .report

set_option maxRecDepth 100000 in
/-- `pins_write_once` speaks about `takenOverRun` and the late sync: no step of them is of
`Repins`. -/
theorem pins_write_once_takenOverRun :
    StaysTrue (step sampleConfig) (fun s => s.rows 0 .report = some ⟨0, 0⟩) .init
      (takenOverRun ++ lateSync) :=
  pins_write_once sampleConfig (takenOverRun ++ lateSync) (by decide) 0 .report ⟨0, 0⟩

set_option maxRecDepth 100000 in
/-- Pins are not written once: worker `0`, which has lost its lease, uploads a later version of
the report, and the late sync pins it. -/
theorem pins_not_write_once :
    ¬ ∀ (cfg : Config Unit ℕ ℕ) (as : List (Action Unit)) (j : JobId) (kind : Artifact)
      (pin : Pin ℕ), StaysTrue (step cfg) (fun s => s.rows j kind = some pin) .init as := by
  intro h
  have h1 : pinnedAfter takenOverRun = some (some ⟨0, 0⟩) := by decide
  have h2 : pinnedAfter (takenOverRun ++ .draft 0 (.upload 1) :: lateSync) =
      some (some ⟨1, 1⟩) := by decide
  obtain ⟨s, hs, hp⟩ := Option.map_eq_some_iff.mp h1
  obtain ⟨s', hs', hp'⟩ := Option.map_eq_some_iff.mp h2
  have hlast := hs'
  rw [run_append, hs] at hlast
  have hkept := h sampleConfig (takenOverRun ++ .draft 0 (.upload 1) :: lateSync) 0 .report ⟨0, 0⟩
    takenOverRun (.draft 0 (.upload 1) :: lateSync) [] s s' (by simp) hs hlast hp
  exact absurd (hp'.symm.trans hkept) (by decide)

end Artifacts
